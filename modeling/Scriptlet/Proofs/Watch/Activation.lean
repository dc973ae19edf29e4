import Scriptlet.Proofs.Evaluation
import Scriptlet.Proofs.Heap.ReachMatch
import Scriptlet.Proofs.Machine.Steps
import Scriptlet.Proofs.Soundness.Frames
import Scriptlet.Proofs.Watch.Invariant

/-!
# What code can do in a call

A watched activation and the activation itself do the same at each request, and keep the machine in order. While
code runs in a call, objects stay where they are, containers change only if they are not frozen, and of all
frames only that of the call itself changes.
-/

namespace Scriptlet

open Call (Args)
open Code (Name Need)
open Heap (Cell Frame)
open Watched (during note onMachine record)

/-- What may follow while code runs in a call whose frame is `own`, or at module level; `assigns` says whether the
code may assign to globals. -/
structure Watch.Later (own : Option Address) (assigns : Prop) (w w' : Watch) : Prop where
  store : w.machine.store.Grows (fun a => own = some a) w'.machine.store
  origin : ∀ {a c}, w.machine.store.heap.cell? a = some c →
    w'.history.origin a = w.history.origin a
  frozen : w'.machine.globals.frozen = w.machine.globals.frozen
  globals : (assigns → w.machine.globals.frozen = true) → w'.machine.globals = w.machine.globals

namespace Watch.Later

variable {own : Option Address} {assigns : Prop} {w w' w'' : Watch}

theorem refl (own : Option Address) (assigns : Prop) (w : Watch) : Later own assigns w w :=
  ⟨.refl _ _, fun _ => rfl, rfl, fun _ => rfl⟩

theorem trans (h : Later own assigns w w') (h' : Later own assigns w' w'') :
    Later own assigns w w'' where
  store := h.store.trans h'.store
  origin hc := by
    obtain ⟨c', hc', -⟩ := h.store.kept hc
    exact (h'.origin hc').trans (h.origin hc)
  frozen := h'.frozen.trans h.frozen
  globals hf := (h'.globals fun ha => h.frozen.trans (hf ha)).trans (h.globals hf)

theorem live (h : Later own assigns w w') {L : Lineage} (hL : L.Live w.history w.machine.store.heap) :
    L.Live w'.history w'.machine.store.heap :=
  hL.imp fun hf => by
    obtain ⟨g, hg, -⟩ := h.store.frame hf
    exact ⟨h.origin hf, g, hg⟩

/-- An operation on the store. -/
theorem of_quiet {store : Store} (q : w.machine.store.Quiet store) :
    Later own assigns w { w with machine := { w.machine with store } } where
  store := q.toGrows.imp fun _ h => h.elim
  origin _ := rfl
  frozen := rfl
  globals _ := rfl

end Watch.Later

/-- A watched run in a call of lineage `L` beside the run itself. -/
def watching (l : Library) (word : String → Prop) (assigns : Prop) (L : Lineage) :
    Simulation Watch Machine Watch where
  le := Watch.Later L.frame? assigns
  refl := .refl _ _
  trans := .trans
  states w s t := s = w ∧ t = w.machine ∧ w.Sound l word ∧ L.Live w.history w.machine.store.heap

/-- What there is in the store of a watched run. -/
def Watch.view (l : Library) (w : Watch) : Matching := w.machine.store.view l

/-! ## Steps -/

section steps

variable {l : Library} {word : String → Prop} {assigns : Prop} {L : Lineage} {w : Watch} {m : Machine} {α : Type}

theorem Machine.Sound.of_store {store : Store} (h : m.Sound l) (sound : store.Sound l)
    (le : (m.store.view l).Le (store.view l)) : Machine.Sound l { m with store } :=
  ⟨sound, h.globals.imp fun _ _ _ hv => hv.mono le⟩

theorem Machine.Tracked.quiet {H : History} {store : Store} (h : m.Tracked l word H)
    (q : m.store.Quiet store) (sound : store.Sound l) :
    Machine.Tracked l word { m with store } H where
  sound := h.sound.of_store sound (q.view_le l)
  words x hx := q.words x (h.words x hx)
  tracks := h.tracks.quiet q

/-- An operation on the store. -/
theorem watching_onStore {β : Type} {R : Store → α → β → Prop} {x : StoreM α} {y : StoreM β}
    (h : (Store.soundness l).Runs w.machine.store R x y) :
    (watching l word assigns L).Runs w (fun w' => R w'.machine.store) (onMachine (Run.onStore x))
      (Run.onStore y) := by
  rintro s t ⟨rfl, rfl, sound, live⟩
  obtain ⟨⟨store, globals, tracer⟩, history, moments⟩ := s
  have ends := h ⟨rfl, rfl, sound.tracked.sound.store⟩
  have step {store' : Store} (quiet : store.Quiet store') (sound' : store'.Sound l) :
      (watching l word assigns L).le ⟨⟨store, globals, tracer⟩, history, moments⟩
        ⟨⟨store', globals, tracer⟩, history, moments⟩ ∧
      (watching l word assigns L).states ⟨⟨store', globals, tracer⟩, history, moments⟩
        ⟨⟨store', globals, tracer⟩, history, moments⟩ ⟨store', globals, tracer⟩ := by
    have later : Watch.Later L.frame? assigns ⟨⟨store, globals, tracer⟩, history, moments⟩
        ⟨⟨store', globals, tracer⟩, history, moments⟩ := .of_quiet quiet
    exact ⟨later, rfl, rfl, ⟨sound.tracked.quiet quiet sound', sound.moments⟩, later.live live⟩
  simp only [onMachine, Run.onStore]
  generalize x store = r at ends ⊢
  generalize y store = q at ends ⊢
  cases ends with
  | ok quiet states hR =>
    obtain ⟨rfl, rfl, sound'⟩ := states
    exact .ok (step quiet sound').1 (step quiet sound').2 hR
  | raised e quiet states =>
    obtain ⟨rfl, rfl, sound'⟩ := states
    exact .raised e (step quiet sound').1 (step quiet sound').2

/-- The tracer is told of an event. -/
theorem watching_observe (e : Trace.Event) :
    (watching l word assigns L).Runs w (fun _ _ _ => True) (onMachine (Run.observe e)) (Run.observe e) := by
  rintro s t ⟨rfl, rfl, sound, live⟩
  obtain ⟨⟨store, globals, tracer⟩, history, moments⟩ := s
  have later : (watching l word assigns L).le ⟨⟨store, globals, tracer⟩, history, moments⟩
      ⟨⟨store, globals, tracer.observe e⟩, history, moments⟩ :=
    ⟨.refl _ _, fun _ => rfl, rfl, fun _ => rfl⟩
  have tracked := sound.tracked
  exact .ok later ⟨rfl, rfl, ⟨⟨⟨tracked.sound.store, tracked.sound.globals⟩, tracked.words,
    tracked.tracks⟩, sound.moments⟩, live⟩ trivial

/-- A request that code need not be allowed to make. -/
theorem asked_none : ∀ n ∈ (none : Option Need), Asked l word L n :=
  fun n hn => absurd hn (Option.not_mem_none n)

/-- A moment is noted before a request is met. -/
theorem watching_note {R : Watch → α → α → Prop} {act : Activation} {need : Option Need}
    {vs vs' : List Value} {x : Watched α} {y : Run α} (library : act.library = l)
    (frame : act.frame = L.frame?) (asked : ∀ n ∈ need, Asked l word L n) (operands : (w.view l).values vs vs')
    (h : ∀ {w'}, (watching l word assigns L).le w w' → (watching l word assigns L).Runs w' R x y) :
    (watching l word assigns L).Runs w R (do note act L need vs; x) y := by
  obtain rfl := (Store.view_diagonal l w.machine.store).values_eq operands
  rintro s t ⟨rfl, rfl, sound, live⟩
  obtain ⟨machine, history, moments⟩ := s
  have right : Moment.Right l word ⟨act, L, need, vs, machine, history⟩ :=
    ⟨library, frame, sound.tracked, live, asked, operands⟩
  have later : (watching l word assigns L).le ⟨machine, history, moments⟩
      ⟨machine, history, ⟨act, L, need, vs, machine, history⟩ :: moments⟩ :=
    ⟨.refl _ _, fun _ => rfl, rfl, fun _ => rfl⟩
  refine (h later ⟨rfl, rfl, ⟨sound.tracked, ?_⟩, live⟩).from_le later
  exact List.forall_mem_cons.2 ⟨right, sound.moments⟩

theorem Watched.onMachine_ok {x : Run α} {a : α} (h : x w.machine = .ok a m) :
    onMachine x w = .ok a { w with machine := m } := by
  simp only [onMachine, h]

theorem Watched.onMachine_error {x : Run α} {e : Failure}
    (h : x w.machine = .error e m) : onMachine x w = .error e { w with machine := m } := by
  simp only [onMachine, h]

theorem Watched.onMachine_bind {β : Type} (x : Run α) (f : α → Run β) :
    onMachine (x >>= f) = onMachine x >>= fun a => onMachine (f a) := by
  funext ⟨machine, history, moments⟩
  show onMachine (EStateM.bind x f) _ = EStateM.bind (onMachine x) _ _
  simp only [onMachine, EStateM.bind]
  cases x machine <;> rfl

end steps

/-! ## Variables -/

section locals

variable {l : Library} {word : String → Prop} {assigns : Prop} {L : Lineage} {w : Watch} {act : Activation}

/-- The frame of a live lineage is there. -/
theorem Lineage.Live.rel_frame {s : Store} {H : History} (hL : L.Live H s.heap) (l : Library) :
    Option.Rel (s.view l).frame L.frame? L.frame? := by
  cases L with
  | nil => exact .none
  | cons r L =>
    obtain ⟨-, f, hf⟩ := hL r rfl
    exact .some ⟨rfl, f, hf⟩

theorem watching_loadGlobal (hl : l.Linked) (x : String) :
    (watching l word assigns L).Runs w (fun w' => (w'.view l).value) (onMachine (Run.loadGlobal l x))
      (Run.loadGlobal l x) := by
  rintro s t ⟨rfl, rfl, sound, live⟩
  have rules := Store.soundness_rules hl
  have found := Globals.lookup_agree (rules.serves s.machine.store) sound.tracked.sound.globals x
  simp only [onMachine, Run.loadGlobal]
  generalize s.machine.globals.lookup l x = r at found ⊢
  cases found with
  | ok hv => exact .ok (.refl _ _ _) ⟨rfl, rfl, sound, live⟩ hv
  | raised e => exact .raised _ (.refl _ _ _) ⟨rfl, rfl, sound, live⟩

theorem watching_loadFrom (hl : l.Linked) {p : Option Address} (hp : p.Rel (w.view l).frame p) (x : String) :
    (watching l word assigns L).Runs w (fun w' => (w'.view l).value)
      (onMachine (Activation.loadFrom p x)) (Activation.loadFrom p x) := by
  have rules := Store.soundness_rules hl
  unfold Activation.loadFrom
  rw [Watched.onMachine_bind]
  refine (watching_onStore (rules.inspect (R := fun s => Option.Rel (s.view l).value)
    fun _ _ _ A => A.variableIn hp x)).bind fun w' v v' _ hv => ?_
  cases hv with
  | some hv => exact .pure hv
  | none => exact .raise _

theorem watching_load (hl : l.Linked) (library : act.library = l) (frame : act.frame = L.frame?) (x : Name) :
    (watching l word assigns L).Runs w (fun w' => (w'.view l).value) (onMachine (act.load x))
      (act.load x) := by
  have rules := Store.soundness_rules hl
  intro s t hst
  have here : Option.Rel (w.view l).frame act.frame act.frame := by
    obtain ⟨-, -, -, live⟩ := hst
    exact frame ▸ live.rel_frame l
  refine Simulation.Runs.imp (R := fun w' => (w'.view l).value) ?_ (fun _ _ _ _ h => h) hst
  unfold Activation.load
  split
  · exact library ▸ watching_loadGlobal (library ▸ hl) x.text
  · exact watching_loadFrom hl here x.text
  · rename_i levels hscope
    rw [Watched.onMachine_bind]
    refine (watching_observe _).bind fun w₁ _ _ hw₁ _ => ?_
    have le := hw₁.store.view_le l
    rw [Watched.onMachine_bind]
    refine (watching_onStore (rules.inspect (R := fun s => Option.Rel (s.view l).frame)
      fun _ _ _ A => A.enclosing levels ?_)).bind fun w₂ p q hw₂ hpq => ?_
    · exact Matching.rel_imp le.frame here
    · have : p = q := by
        cases hpq with
        | some h => rw [h.1]
        | none => rfl
      subst this
      exact watching_loadFrom hl hpq x.text

/-- A global is assigned, unless the globals are frozen. -/
theorem watching_storeGlobal {x : String} {v v' : Value} (ha : assigns) (hx : word x) (hv : (w.view l).value v v') :
    (watching l word assigns L).Runs w (fun _ _ _ => True) (onMachine (Run.storeGlobal x v))
      (Run.storeGlobal x v') := by
  obtain rfl := (Store.view_diagonal l w.machine.store).value_eq hv
  rintro s t ⟨rfl, rfl, sound, live⟩
  obtain ⟨⟨store, globals, tracer⟩, history, moments⟩ := s
  have tracked := sound.tracked
  have hglobals := tracked.sound.globals.insert ⟨tracked.words x hx, hv⟩
  simp only [onMachine, Run.storeGlobal]
  cases hf : globals.frozen with
  | true => exact .raised _ (.refl _ _ _) ⟨rfl, rfl, sound, live⟩
  | false =>
    have later : Watch.Later L.frame? assigns ⟨⟨store, globals, tracer⟩, history, moments⟩
        ⟨⟨store, globals.assign x v, tracer⟩, history, moments⟩ :=
      ⟨.refl _ _, fun _ => rfl, rfl, fun h => absurd (hf.symm.trans (h ha)) Bool.false_ne_true⟩
    exact .ok later ⟨rfl, rfl, ⟨⟨⟨tracked.sound.store, hglobals⟩, tracked.words, tracked.tracks⟩,
      sound.moments⟩, live⟩ trivial

/-- The frame of the running call changes. -/
theorem watch_frame_changed {r : CallRecord} {f g : Frame} {H : History} (change : Cell → Cell)
    (sound : w.Sound l word) (live : Lineage.Live (r :: L) w.history w.machine.store.heap)
    (hf : w.machine.store.heap.cell? r.frame = some (.frame f)) (hg : change (.frame f) = .frame g)
    (parent : g.parent = f.parent) (captured : f.captured = true → g.captured = true)
    (vars : g.vars.Matches (w.view l).binding g.vars) (origin : H.origin = w.history.origin)
    (tracks : H.Tracks l word (w.machine.store.heap.update r.frame change)) :
    let m := w.machine.withHeap (w.machine.store.heap.update r.frame change)
    Watch.Later (some r.frame) assigns w ⟨m, H, w.moments⟩ ∧ Watch.Sound l word ⟨m, H, w.moments⟩ ∧
      Lineage.Live (r :: L) H m.store.heap := by
  have tracked := sound.tracked
  have grows := Store.grows_of_frame hf hg parent captured
  have later : Watch.Later (some r.frame) assigns w
      ⟨w.machine.withHeap (w.machine.store.heap.update r.frame change), H, w.moments⟩ :=
    ⟨grows.imp fun _ h => congrArg some h.symm, fun _ => by rw [origin], rfl, fun _ => rfl⟩
  have store := tracked.sound.store.frame_changed hf hg parent captured vars
  exact ⟨later, ⟨⟨tracked.sound.of_store store (grows.view_le l), tracked.words, tracks⟩,
    sound.moments⟩, later.live live⟩

/-- Assigning to a variable. -/
theorem watching_store (library : act.library = l) (frame : act.frame = L.frame?) {x : Name}
    {v v' : Value} (asked : Asked l word L (.store x)) (module : L = [] → assigns) (hv : (w.view l).value v v') :
    (watching l word assigns L).Runs w (fun _ _ _ => True) (act.watchedStore L x v) (act.store x v') := by
  obtain ⟨⟨known, scope⟩, made⟩ := asked
  unfold Activation.watchedStore during
  rw [bind_assoc]
  refine watching_note library frame (fun n hn => Option.some.inj hn ▸ ⟨⟨known, scope⟩, made⟩)
    (.cons hv .nil) fun {w₁} hw₁ => ?_
  have hv₁ := hv.mono (hw₁.store.view_le l)
  cases L with
  | nil =>
    have hx : x.scope = .global := scope
    have same : act.store x v' = Run.storeGlobal x.text v' := funext fun m => Activation.store_global v' hx
    have same' : act.store x v = Run.storeGlobal x.text v := funext fun m => Activation.store_global v hx
    have unrecorded : record (fun H => (x.call? []).elim H (H.stored · x.text)) = pure () := by
      simp only [Name.call?, hx]
      rfl
    rw [same, same', unrecorded, bind_pure_unit]
    exact watching_storeGlobal (module rfl) known hv₁
  | cons r L =>
    obtain rfl := (Store.view_diagonal l w₁.machine.store).value_eq hv₁
    rintro s t ⟨rfl, rfl, sound, live⟩
    have hx : x.scope = .own := scope
    obtain ⟨origin, f, hf⟩ := live r rfl
    have vars := (sound.tracked.sound.store.frame hf).vars.insert
      (k := x.text) ⟨sound.tracked.words _ known, hv₁⟩
    have tracks := sound.tracked.tracks.stored hf origin x.text v
    obtain ⟨later, sound', live'⟩ := watch_frame_changed (H := s.history.stored r x.text)
      (Cell.assign x.text v) sound live hf rfl rfl id vars rfl tracks
    have step := Activation.store_own v hx frame hf
    have watched : (onMachine (act.store x v) >>= fun _ =>
          record fun H => (x.call? (r :: L)).elim H (H.stored · x.text)) s =
        .ok () ⟨s.machine.withHeap (s.machine.store.heap.update r.frame (Cell.assign x.text v)),
          s.history.stored r x.text, s.moments⟩ := by
      rw [bind_of_ok (Watched.onMachine_ok step)]
      simp only [Name.call?, hx]
      rfl
    rw [watched, step]
    exact .ok later ⟨rfl, rfl, sound', live'⟩ trivial

end locals

/-! ## Making functions -/

section functions

variable {l : Library} {word : String → Prop} {assigns : Prop} {L : Lineage} {w : Watch} {act : Activation}

/-- A function value is put on the heap, and its origin is recorded. -/
theorem watching_makeClosure {id : FunctionId} {vs vs' : List Value} {frame : Option Address}
    (known : (w.view l).function id id vs.length) (hvs : (w.view l).values vs vs')
    (captured : frame.Rel (w.view l).captured frame) (hframe : frame = L.frame?) (belongs : Belongs l word L id) :
    (watching l word assigns L).Runs w (fun w' => (w'.view l).value)
      (do let v ← onMachine (Run.allocate (.closure ⟨id, vs, frame⟩))
          record fun H => v.address?.elim H (H.made · L id vs)
          return v)
      (Run.allocate (.closure ⟨id, vs', frame⟩)) := by
  obtain rfl := (Store.view_diagonal l w.machine.store).values_eq hvs
  rintro s t ⟨rfl, rfl, sound, live⟩
  have tracked := sound.tracked
  rw [Run.allocate_eq, Watched.onMachine_bind, bind_assoc]
  obtain ⟨use, refused⟩ | ⟨a, heap, placed, p⟩ := Run.place_cases tracked.sound.store.tidy
    (.closure ⟨id, vs, frame⟩)
  · rw [bind_of_error (Watched.onMachine_error refused), bind_of_error refused]
    exact .raised _ (.refl _ _ _) ⟨rfl, rfl, sound, live⟩
  · rw [bind_of_ok (Watched.onMachine_ok placed), bind_of_ok placed]
    have grows := Store.grows_of_placed (s := s.machine.store) p fun b => L.frame? = some b
    have later : Watch.Later L.frame? assigns s
        ⟨s.machine.withHeap heap, s.history.made a L id vs, s.moments⟩ := by
      refine ⟨grows, fun {b c} hb => if_neg ?_, rfl, fun _ => rfl⟩
      rintro rfl
      exact Option.some_ne_none c (hb.symm.trans p.fresh)
    have sound' := tracked.sound.store.placed p (.inl (.closure known hvs captured))
    exact .ok later ⟨rfl, rfl, ⟨⟨tracked.sound.of_store sound' (grows.view_le l), tracked.words,
      tracked.tracks.made p hframe live belongs⟩, sound.moments⟩, later.live live⟩
      (.ref ⟨rfl, _, p.cell?_self, Heap.CellKind.noConfusion⟩)

/-- The frame of the running call is captured. -/
theorem watching_capture {r : CallRecord} :
    (watching l word assigns (r :: L)).Runs w (fun w' _ _ => (w'.view l).captured r.frame r.frame)
      (onMachine (Run.onStore (Store.onHeap (Heap.captureFrame (some r.frame)))))
      (Run.onStore (Store.onHeap (Heap.captureFrame (some r.frame)))) := by
  rintro s t ⟨rfl, rfl, sound, live⟩
  obtain ⟨-, f, hf⟩ := live r rfl
  obtain ⟨later, sound', live'⟩ := watch_frame_changed (H := s.history) Cell.capture sound live hf rfl
    rfl (fun _ => rfl) (sound.tracked.sound.store.frame hf).vars rfl (sound.tracked.tracks.capture hf)
  have step := Run.onStore_onHeap_ok (m := s.machine) (Heap.captureFrame_frame hf)
  rw [Watched.onMachine_ok step, step]
  refine .ok later ⟨rfl, rfl, sound', live'⟩ ⟨rfl, { f with captured := true }, ?_, rfl⟩
  show (s.machine.store.heap.update r.frame Cell.capture).cell? r.frame = _
  rw [Heap.cell?_update, if_pos rfl, hf]
  rfl

/-- Making a function. -/
theorem watching_function (library : act.library = l) (frame : act.frame = L.frame?)
    {id : FunctionId} {vs vs' : List Value} (asked : Asked l word L (.make id vs.length))
    (hvs : (w.view l).values vs vs') :
    (watching l word assigns L).Runs w (fun w' => (w'.view l).value) (act.watchedFunction L id vs)
      (act.makeFunction id vs') := by
  obtain ⟨f, hf, hcount, hnested⟩ := asked.1
  have belongs : Belongs l word L id := asked.2 id rfl
  have found : act.library.function id = .ok f := by simp only [library, Library.function, hf]
  unfold Activation.watchedFunction during
  simp only [bind_assoc]
  refine watching_note library frame (fun n hn => Option.some.inj hn ▸ asked) hvs fun {w₁} hw₁ => ?_
  have hvs₁ := Matching.values.mono (hw₁.store.view_le l) hvs
  rw [Activation.makeFunction_eq found, Activation.makeFunction_eq found]
  simp only [Watched.onMachine_bind, bind_assoc]
  refine (watching_observe _).bind fun w₂ _ _ hw₂ _ => ?_
  have hvs₂ := Matching.values.mono (hw₂.store.view_le l) hvs₁
  cases L with
  | nil =>
    have nested : f.nested = false := hnested
    simp only [nested, Bool.false_eq_true, if_false]
    exact watching_makeClosure ⟨rfl, f, hf, hcount⟩ hvs₂ .none rfl belongs
  | cons r L =>
    have nested : f.nested = true := hnested
    have here : act.frame = some r.frame := frame
    simp only [nested, if_true, here, Watched.onMachine_bind, bind_assoc]
    refine watching_capture.bind fun w₃ _ _ hw₃ captured => ?_
    exact watching_makeClosure ⟨rfl, f, hf, hcount⟩ (Matching.values.mono (hw₃.store.view_le l) hvs₂)
      (.some captured) rfl belongs

end functions

/-! ## All requests -/

section engine

variable {l : Library} {word : String → Prop} {assigns : Prop} {L : Lineage} {w : Watch} {act : Activation}

/-- A statement is counted. -/
theorem soundness_tick (s : Store) :
    (Store.soundness l).Runs s (fun _ _ _ => True) (Store.onHeap Run.tick) (Store.onHeap Run.tick) := by
  rintro _ _ ⟨rfl, rfl, sound⟩
  rename_i s
  obtain ⟨⟨slots, free, meter, since⟩, lexicon⟩ := s
  have states {meter' : Budget.Meter} : (Store.soundness l).states
      ⟨⟨slots, free, meter', since⟩, lexicon⟩ ⟨⟨slots, free, meter', since⟩, lexicon⟩
      ⟨⟨slots, free, meter', since⟩, lexicon⟩ :=
    ⟨rfl, rfl, ⟨sound.tidy.mem_free_iff, sound.tidy.nodup⟩, sound.object, sound.frame⟩
  have quiet : Store.Quiet ⟨⟨slots, free, meter, since⟩, lexicon⟩
      ⟨⟨slots, free, meter.tick.2, since⟩, lexicon⟩ :=
    ⟨⟨fun _ => id, fun hc => ⟨_, hc, .same _⟩, meter.reset_tick⟩,
      fun hn hc => (Option.some_ne_none _ (hc.symm.trans hn)).elim⟩
  simp only [Store.onHeap, Run.tick]
  cases hm : meter.tick with
  | mk use meter' =>
    rw [hm] at quiet
    cases use with
    | none => exact .ok quiet states trivial
    | some use => exact .raised _ quiet states

/-- An operation on the store is a request that the machine meets. -/
theorem watching_operation {α : Type} {R : Store → α → α → Prop} {vs vs' : List Value}
    {x y : StoreM α} (library : act.library = l) (frame : act.frame = L.frame?) (operands : (w.view l).values vs vs')
    (h : ∀ {s}, w.machine.store.Grows (fun a => L.frame? = some a) s →
      (Store.soundness l).Runs s R x y) :
    (watching l word assigns L).Runs w (fun w' => R w'.machine.store) (during act L none vs (Run.onStore x))
      (Run.onStore y) :=
  watching_note library frame asked_none operands fun hw => watching_onStore (h hw.store)

theorem operands_of_args {M : Matching} {args args' : Args} (h : M.args args args') :
    M.values args.operands args'.operands := by
  have hk := h.keywords
  refine List.rel_append h.positional ?_
  generalize args.keywords = ks at hk ⊢
  generalize args'.keywords = ks' at hk ⊢
  induction hk with
  | nil => exact .nil
  | @cons e f _ _ he _ ih =>
    have name : M.value (.text e.1) (.text f.1) := he.1 ▸ Matching.value.text he.2.1
    exact .cons name (.cons he.2.2 ih)

/-- A watched activation does what the activation does, if watched calls do what calls do. It runs code with the
needs `D`, which assigns to globals only if it may. -/
theorem engineMatch_watched (hl : l.Linked) {call : Value → Args → Watched Value} {D : Need → Prop}
    (asked : ∀ need, D need → Asked l word L need) (module : ∀ x, D (.store x) → L = [] → assigns)
    (library : act.library = l) (frame : act.frame = L.frame?)
    (hcall : ∀ {w v v' args args'}, (w.view l).value v v' → (w.view l).args args args' →
      (watching l word assigns L).Runs w (fun w' => (w'.view l).value) (call v args) (act.call v' args')) :
    EngineMatch (watching l word assigns L) (Watch.view l) D (act.watched L call) act.engine := by
  subst library
  have rules := Store.soundness_rules hl
  have le {w : Watch} {s : Store} (h : w.machine.store.Grows (fun a => L.frame? = some a) s) :
      (w.view act.library).Le (s.view act.library) := h.view_le _
  refine
    { view_le := fun h => h.store.view_le _
      word := ?_
      load := fun {w x} hx => watching_note rfl frame (fun n hn => Option.some.inj hn ▸ asked _ hx)
        .nil fun _ => watching_load hl rfl frame x
      store := fun {w x v v'} hx => watching_store rfl frame (asked _ hx) (module x hx)
      list := fun hvs => watching_operation rfl frame hvs fun g => rules.allocate ?_
      tuple := fun hvs => watching_operation rfl frame hvs fun g => rules.allocate ?_
      key := fun hv => watching_operation rfl frame (.cons hv .nil) fun g =>
        rules.inspect (R := fun _ => Eq) fun _ _ _ A => A.key (hv.mono (le g))
      dict := fun hes => watching_operation rfl frame (Matching.entries_parts hes) fun g => rules.allocate ?_
      item := fun hv hi => watching_operation rfl frame (.cons hv (.cons hi .nil)) fun g =>
        rules.inspect (R := fun s => (s.view act.library).value) fun _ _ _ A =>
          A.item (hv.mono (le g)) (hi.mono (le g))
      setItem := fun hv hi hu => watching_operation rfl frame
        (.cons hv (.cons hi (.cons hu .nil))) fun g =>
        rules.setItem (hv.mono (le g)) (hi.mono (le g)) (hu.mono (le g))
      attr := fun hv => watching_operation rfl frame (.cons hv .nil) fun g =>
        rules.readAttr (hv.mono (le g)) _
      binary := fun hv hu => watching_operation rfl frame (.cons hv (.cons hu .nil)) fun g =>
        rules.binary _ (hv.mono (le g)) (hu.mono (le g))
      augment := fun hv hu => watching_operation rfl frame (.cons hv (.cons hu .nil)) fun g =>
        rules.augment _ (hv.mono (le g)) (hu.mono (le g))
      compare := fun hv hu => watching_operation rfl frame (.cons hv (.cons hu .nil)) fun g =>
        rules.inspect (R := fun _ => Eq) fun _ _ _ A => A.holds _ (hv.mono (le g)) (hu.mono (le g))
      negate := fun hv => watching_operation rfl frame (.cons hv .nil) fun g =>
        rules.inspect (R := fun s => (s.view act.library).value) fun _ _ _ A => A.negate (hv.mono (le g))
      truthy := fun hv => watching_operation rfl frame (.cons hv .nil) fun g =>
        rules.inspect (R := fun _ => Eq) fun _ _ _ A => A.truthy (hv.mono (le g))
      items := fun hv => watching_operation rfl frame (.cons hv .nil) fun g =>
        rules.inspect (R := fun s => (s.view act.library).values) fun _ _ _ A => A.items (hv.mono (le g))
      keywords := fun hv => watching_operation rfl frame (.cons hv .nil) fun g =>
        rules.spreadKeywords (hv.mono (le g))
      function := fun hf => watching_function rfl frame (asked _ hf)
      call := fun hv hargs => watching_note rfl frame asked_none (.cons hv (operands_of_args hargs)) fun hw =>
        hcall (hv.mono (hw.store.view_le _)) (hargs.mono (hw.store.view_le _))
      begin := fun {w kind} => watching_note rfl frame asked_none .nil fun _ => ?_ }
  · rintro w s t x ⟨rfl, rfl, sound, -⟩ known
    exact sound.tracked.words x (asked _ known).1
  · exact ⟨.list false (by simpa using Matching.values.mono (le g) hvs), Heap.CellKind.noConfusion⟩
  · exact ⟨.tuple (by simpa using Matching.values.mono (le g) hvs), Heap.CellKind.noConfusion⟩
  · exact ⟨.dict false (hes.imp fun _ _ _ he => he.mono (le g)), Heap.CellKind.noConfusion⟩
  · show (watching _ word assigns L).Runs _ _ (onMachine (act.begin kind)) (act.begin kind)
    unfold Activation.begin
    rw [Watched.onMachine_bind]
    exact (watching_onStore (soundness_tick _)).bind fun _ _ _ _ _ => watching_observe _

end engine

end Scriptlet
