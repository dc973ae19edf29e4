import Scriptlet.Proofs.Code.Resolution
import Scriptlet.Proofs.Watch.TopLevel

/-!
# Watched sessions

Whatever a host asks of a module, a watched step does what the step does, the module stays in order, no table is
ever broken, and the machine is in order at all moments of the run. From this the same follows for all sessions
that start with a new module.
-/

namespace Scriptlet

open Budget (Meter)
open Call (Args)
open Code (Draft Extends)
open Heap (Cell Frame)
open Trace (Tracer)

/-! ## Libraries and lexicons that grow -/

/-- All that the first library holds stands in the second at the same place. -/
structure Library.Grows (l l' : Library) : Prop where
  functions : Extends l.functions l'.functions
  natives : l.natives.size ≤ l'.natives.size

section grows

variable {l l' : Library} {word word' : String → Prop} {H : History}

theorem Library.Grows.refl (l : Library) : l.Grows l := ⟨.refl _, Nat.le_refl _⟩

theorem Belongs.mono (hl : l.Grows l') (hw : ∀ x, word x → word' x) {L : Lineage} {id : FunctionId}
    (h : Belongs l word L id) : Belongs l' word' L id :=
  ⟨h.defined.mono hl.functions hw, fun r hr => (h.enclosed r hr).mono hl.functions⟩

theorem History.Tracks.mono (hl : l.Grows l') (hw : ∀ x, word x → word' x) {h : Heap}
    (T : H.Tracks l word h) : H.Tracks l' word' h where
  frame hf := by
    obtain ⟨r, L, d⟩ := T.frame hf
    exact ⟨r, L, d.origin, d.frame, d.parent, d.live, d.belongs.mono hl hw, d.assigned⟩
  closure hc := ⟨(T.closure hc).1, (T.closure hc).2.1, (T.closure hc).2.2.mono hl hw⟩
  birth := T.birth
  journal := T.journal.mono hl.functions

theorem Store.view_mono (hl : l.Grows l') {s : Store} {lexicon : Code.Lexicon}
    (hw : ∀ x ∈ s.lexicon.words, x ∈ lexicon.words) :
    (s.view l).Le (Store.view l' { s with lexicon }) where
  object := id
  frame := id
  captured := id
  word hx := hw _ hx
  native h := Nat.lt_of_lt_of_le h hl.natives
  function h := by
    obtain ⟨same, f, hf, hcount⟩ := h
    exact ⟨same, f, hl.functions hf, hcount⟩

theorem Machine.Tracked.of_tracer {m : Machine} (h : m.Tracked l word H) (tracer : Tracer) :
    Machine.Tracked l word { m with tracer } H :=
  ⟨⟨h.sound.store, h.sound.globals⟩, h.words, h.tracks⟩

theorem Machine.Tracked.mono (hl : l.Grows l') (hw : ∀ x, word x → word' x) {m : Machine}
    {lexicon : Code.Lexicon} (h : m.Tracked l word H) (words : ∀ x ∈ m.store.lexicon.words, x ∈ lexicon.words)
    (known : ∀ x, word' x → x ∈ lexicon.words) :
    Machine.Tracked l' word' { m with store := { m.store with lexicon } } H := by
  have le := Store.view_mono hl words
  refine ⟨⟨⟨h.sound.store.tidy, fun hc hk => (h.sound.store.object hc hk).mono le,
    fun hf => (h.sound.store.frame hf).mono le⟩, ?_⟩, known, h.tracks.mono hl hw⟩
  exact h.sound.globals.imp fun _ _ _ hv => hv.mono le

end grows

/-! ## Modules -/

/-- At a moment, the machine is in order for the library that runs. -/
def Moment.Proper (μ : Moment) : Prop :=
  (∃ word, μ.Right μ.activation.library word) ∧
    (Code.madeIn μ.activation.library.functions.toList).Nodup ∧ μ.activation.library.Linked

/-- A module is in order, and is tracked by the history. -/
structure Module.Tracked (m : Module) (H : History) : Prop where
  linked : m.library.Linked
  builtins : ∀ {x id}, m.library.builtins.find? x = some id → x ∈ m.store.lexicon.words
  methods : ∀ {type x id}, m.library.method? type x = some id → x ∈ m.store.lexicon.words
  draft : Draft.Sound ⟨m.store.lexicon, m.library.functions⟩
  machine : Machine.Tracked m.library (· ∈ m.store.lexicon.words) ⟨m.store, m.globals, .silent⟩ H

theorem Answer.raised_ne_broken (e : Exception) (table : Table) (index : Nat) :
    Answer.failed (.raised e) ≠ .failed (.broken table index) :=
  fun h => Failure.noConfusion (Answer.failed.inj h)

/-- A watched step gives a result, leaves a module that is in order, breaks no table, has noted only moments at
which the machine is in order, keeps what lasts, and only adds to the table of functions. -/
structure Watching.Right (m : Module) (r : Reply × Module) (w : Watching) : Prop where
  result : w.result = r
  tracked : r.2.Tracked w.history
  answer : ∀ table index, r.1.answer ≠ .failed (.broken table index)
  moments : ∀ μ ∈ w.moments, μ.Proper
  lasts : Lasts m.globals m.heap r.2.globals r.2.heap
  grows : Extends m.library.functions r.2.library.functions
  libraries : ∀ μ ∈ w.moments, Extends μ.activation.library.functions r.2.library.functions

namespace Module

variable {m : Module} {H : History} {α : Type} {store : Store}

theorem tracked_create (name : String) (meter : Meter) : (create name meter).Tracked {} := by
  have empty (a : Address) : (Heap.empty meter).cell? a = none := by simp [Heap.cell?, Heap.empty]
  refine ⟨⟨?_, ?_⟩, ?_, ?_, .empty, ⟨⟨Heap.tidy_empty meter, ?_, ?_⟩, .empty⟩, fun _ => id, ?_, ?_, ?_, trivial⟩
  all_goals simp [create, empty, OrderedMap.find?_eq, OrderedMap.entries_empty, Library.method?]

/-- A collection keeps a module in order. -/
theorem Tracked.collected (h : m.Tracked H) : m.collect.2.Tracked H :=
  ⟨h.linked, h.builtins, h.methods, h.draft, h.machine.collected⟩

theorem Tracked.collectedIfDue (h : m.Tracked H) : m.collectIfDue.Tracked H := by
  unfold collectIfDue
  split
  · exact h.collected
  · exact h

theorem lasts_collectIfDue (m : Module) : Lasts m.globals m.heap m.collectIfDue.globals m.collectIfDue.heap := by
  unfold collectIfDue
  split
  · exact lasts_collect m.globals m.heap
  · exact .refl _ _

theorem library_collectIfDue (m : Module) : m.collectIfDue.library = m.library := by
  unfold collectIfDue
  split <;> rfl

/-- Entering a module changes only its store and its globals. -/
theorem after_enter (m : Module) (tracer : Tracer) (x : Library → Run α) :
    ∃ store globals, (m.enter tracer x).after = { m with store, globals } := by
  obtain ⟨name, library, store, globals⟩ := m
  simp only [enter, collectIfDue]
  split
  all_goals
    split <;> exact ⟨_, _, rfl⟩

/-- The store and the globals of a module change while the library stays, and no word is forgotten. -/
theorem Tracked.of_machine (h : m.Tracked H) {globals : Globals} {tracer : Tracer} {H' : History}
    (machine : Machine.Tracked m.library (· ∈ m.store.lexicon.words) ⟨store, globals, tracer⟩ H') :
    Tracked { m with store, globals } H' where
  linked := h.linked
  builtins hx := machine.words _ (h.builtins hx)
  methods hx := machine.words _ (h.methods hx)
  draft := h.draft.of_words rfl machine.words
  machine :=
    (machine.mono (.refl _) machine.words (fun x (h : x ∈ store.lexicon.words) => h)
      fun _ => id).of_tracer .silent

/-- A moment of a run of the module's library is proper. -/
theorem proper_of_right (h : m.Tracked H) {word : String → Prop} {μ : Moment}
    (right : μ.Right m.library word) : μ.Proper := by
  have library := right.library
  exact ⟨⟨word, library ▸ right⟩, library ▸ h.draft.nodup, library ▸ h.linked⟩

/-- Entering a module. -/
theorem enterWatched_right (h : m.Tracked H) (tracer : Tracer) {f : α → Answer}
    (hf : ∀ a table index, f a ≠ .failed (.broken table index)) {x : Library → Watched α} {y : Library → Run α}
    (runs : (resting m.library (· ∈ m.store.lexicon.words)).Runs ⟨⟨m.store, m.globals, tracer⟩, H, []⟩
      (fun _ => Eq) (x m.library) (y m.library)) :
    (m.enterWatched H tracer f x).Right m (reply f (m.enter tracer y)) := by
  have ends := runs ⟨rfl, rfl, ⟨h.machine.of_tracer tracer, List.forall_mem_nil _⟩, Lineage.live_nil _ _⟩
  have after {w : Watch} (sound : w.Sound m.library (· ∈ m.store.lexicon.words)) :
      let m' : Module := { m with store := w.machine.store, globals := w.machine.globals }
      m'.collectIfDue.Tracked w.history ∧ (∀ μ ∈ w.moments, μ.Proper) ∧
        Lasts w.machine.globals w.machine.store.heap m'.collectIfDue.globals m'.collectIfDue.heap ∧
        Extends m.library.functions m'.collectIfDue.library.functions ∧
        ∀ μ ∈ w.moments, Extends μ.activation.library.functions m'.collectIfDue.library.functions := by
    intro m'
    have library : m'.collectIfDue.library = m.library := library_collectIfDue m'
    refine ⟨(h.of_machine sound.tracked).collectedIfDue, fun μ hμ => proper_of_right h (sound.moments μ hμ),
      lasts_collectIfDue m', library ▸ .refl _, fun μ hμ => ?_⟩
    rw [library, (sound.moments μ hμ).library]
    exact .refl _
  obtain ⟨name, library, store, globals⟩ := m
  simp only [enterWatched, enter]
  generalize x library ⟨⟨store, globals, tracer⟩, H, []⟩ = p at ends ⊢
  generalize y library ⟨store, globals, tracer⟩ = q at ends ⊢
  cases ends with
  | ok lasts states hab =>
    obtain ⟨rfl, rfl, sound, -⟩ := states
    obtain ⟨tracked, moments, lasts', grows, libraries⟩ := after sound
    subst hab
    exact ⟨rfl, tracked, hf _, moments, lasts.trans lasts', grows, libraries⟩
  | raised e lasts states =>
    obtain ⟨rfl, rfl, sound, -⟩ := states
    obtain ⟨tracked, moments, lasts', grows, libraries⟩ := after sound
    exact ⟨rfl, tracked, Answer.raised_ne_broken e, moments, lasts.trans lasts', grows, libraries⟩

/-! ## Steps -/

/-- A module with another table of functions and another lexicon. -/
def withDraft (m : Module) (d : Draft) : Module :=
  { m with
    library := { m.library with functions := d.functions }
    store := { m.store with lexicon := d.lexicon } }

theorem resolve_eq (m : Module) (resolver : Draft → Except Fault.Malformed α × Draft) :
    m.resolve resolver = ((resolver ⟨m.store.lexicon, m.library.functions⟩).1,
      m.withDraft (resolver ⟨m.store.lexicon, m.library.functions⟩).2) := rfl

theorem Tracked.withDraft (h : m.Tracked H) {d : Draft} (sound : d.Sound)
    (words : ∀ x ∈ m.store.lexicon.words, x ∈ d.lexicon.words)
    (functions : Extends m.library.functions d.functions) : (m.withDraft d).Tracked H where
  linked := ⟨h.linked.builtin, h.linked.method⟩
  builtins hx := words _ (h.builtins hx)
  methods hx := words _ (h.methods hx)
  draft := sound
  machine := by
    have grows : m.library.Grows (m.withDraft d).library := ⟨functions, Nat.le_refl _⟩
    exact h.machine.mono grows words words fun _ => id

/-- Code that resolution gave for the module level may ask for all that it needs. -/
theorem asked_of_resolved {d d' : Draft} {needs : List Code.Need} {new : List Code.Function}
    (hr : Code.Resolved d 0 needs new d') {l : Library} (hl : l.functions = d'.functions) :
    ∀ need ∈ needs, Asked l d'.Knows [] need := by
  intro need hneed
  refine ⟨hl ▸ hr.allowed need hneed, fun id hid => ⟨?_, fun r hr => absurd hr (Option.not_mem_none r)⟩⟩
  exact hl ▸ hr.made id (List.mem_filterMap.2 ⟨need, hneed, hid⟩)

/-- A step that is refused or does not run any code. -/
theorem right_of_tracked {r : Reply × Module} {H' : History} (tracked : r.2.Tracked H')
    (answer : ∀ table index, r.1.answer ≠ .failed (.broken table index))
    (lasts : Lasts m.globals m.heap r.2.globals r.2.heap)
    (grows : Extends m.library.functions r.2.library.functions) : Watching.Right m r ⟨r, H', []⟩ :=
  ⟨rfl, tracked, answer, List.forall_mem_nil _, lasts, grows, List.forall_mem_nil _⟩

/-- The table of functions only grows when code is resolved before a step. -/
theorem right_of_withDraft {d : Draft} (grows : Extends m.library.functions d.functions) {r : Reply × Module}
    {w : Watching} (right : w.Right (m.withDraft d) r) : w.Right m r :=
  ⟨right.result, right.tracked, right.answer, right.moments, right.lasts, grows.trans right.grows, right.libraries⟩

theorem stepWatched_exec (h : m.Tracked H) (tracer : Tracer) (program : List Program.Stmt) :
    (m.stepWatched H (.exec tracer program)).Right m (m.step (.exec tracer program)) := by
  simp only [stepWatched, step, exec, resolve_eq]
  obtain ⟨code, d, new, hd, sound, hr⟩ | ⟨e, d, hd, sound, functions, words⟩ :=
    Draft.resolveProgram_cases h.draft program
  · rw [hd]
    have tracked := h.withDraft sound hr.words (Code.extends_of_toList hr.functions)
    have asked := asked_of_resolved hr (l := (m.withDraft d).library) rfl
    have runs := (resting_execTop (w := ⟨⟨(m.withDraft d).store, m.globals, tracer⟩, H, []⟩)
      tracked.linked code asked).imp (T := fun _ => Eq) fun _ _ _ _ _ => rfl
    have right := enterWatched_right tracked tracer (f := fun _ => .done) (fun _ _ _ => Answer.noConfusion)
      (x := fun l => Watched.execTop l code) (y := fun l => Run.execTop l code) runs
    exact right_of_withDraft (Code.extends_of_toList hr.functions) right
  · rw [hd]
    have same : Extends m.library.functions d.functions := functions ▸ .refl _
    exact right_of_tracked (h.withDraft sound words same) (Answer.raised_ne_broken _) (.refl _ _) same

theorem stepWatched_eval (h : m.Tracked H) (e : Program.Expr) :
    (m.stepWatched H (.eval e)).Right m (m.step (.eval e)) := by
  simp only [stepWatched, step, eval, resolve_eq]
  obtain ⟨code, d, new, hd, sound, hr⟩ | ⟨e, d, hd, sound, functions, words⟩ :=
    Draft.resolveExpr_cases h.draft e
  · rw [hd]
    have tracked := h.withDraft sound hr.words (Code.extends_of_toList hr.functions)
    have asked := asked_of_resolved hr (l := (m.withDraft d).library) rfl
    have runs := watching_evalShown (w := ⟨⟨(m.withDraft d).store, m.globals, .silent⟩, H, []⟩)
      tracked.linked code asked
    have right := enterWatched_right tracked .silent (f := .object) (fun _ _ _ => Answer.noConfusion)
      (x := fun l => do
        let v ← Watched.evalTop l code
        Watched.onMachine (Run.inspect (v.unfold l)))
      (y := fun l => do
        let v ← Run.evalTop l code
        Run.inspect (v.unfold l)) (resting_of_watching runs)
    exact right_of_withDraft (Code.extends_of_toList hr.functions) right
  · rw [hd]
    have same : Extends m.library.functions d.functions := functions ▸ .refl _
    exact right_of_tracked (h.withDraft sound words same) (Answer.raised_ne_broken _) (.refl _ _) same

/-- An operation on the store keeps a module in order. -/
theorem Tracked.quiet (h : m.Tracked H) (q : m.store.Quiet store)
    (sound : store.Sound m.library) : Tracked { m with store } H :=
  h.of_machine (h.machine.quiet q sound)

theorem lasts_of_quiet (q : m.store.Quiet store) : Lasts m.globals m.heap m.globals store.heap :=
  ⟨kept_of_grows q.toGrows (fun _ => id) fun _ => rfl, q.meter⟩

/-- What looking up a global gives. -/
theorem Tracked.lookup (h : m.Tracked H) (x : String) :
    (∃ e, m.globals.lookup m.library x = .error (.raised e)) ∨
    ∃ v, m.globals.lookup m.library x = .ok v ∧ (m.store.view m.library).value v v := by
  have rules := Store.soundness_rules h.linked
  have found := Globals.lookup_agree (rules.serves m.store) h.machine.sound.globals x
  generalize m.globals.lookup m.library x = r at found ⊢
  cases found with
  | ok hv => exact .inr ⟨_, rfl, hv⟩
  | raised e => exact .inl ⟨e, rfl⟩

theorem stepWatched_call (h : m.Tracked H) (tracer : Tracer) (name : String)
    (positional : List Object) (keywords : List (String × Object)) :
    (m.stepWatched H (.call tracer name positional keywords)).Right m
      (m.step (.call tracer name positional keywords)) := by
  have rules := Store.soundness_rules h.linked
  simp only [stepWatched, step, call]
  obtain ⟨e, he⟩ | ⟨callee, hc, hv⟩ := h.lookup name
  · rw [he]
    exact right_of_tracked h (Answer.raised_ne_broken _) (.refl _ _) (.refl _)
  · rw [hc]
    have built := rules.buildArgs (w := m.store) positional keywords
      ⟨rfl, rfl, h.machine.sound.store⟩
    obtain ⟨name, library, store, globals⟩ := m
    generalize buildArgs positional keywords store = r at built ⊢
    cases built with
    | raised e quiet states =>
      obtain ⟨rfl, -, sound⟩ := states
      exact right_of_tracked (h.quiet quiet sound) (Answer.raised_ne_broken _) (lasts_of_quiet quiet)
        (.refl _)
    | @ok _ args _ store' _ quiet states hargs =>
      obtain ⟨rfl, -, sound⟩ := states
      have tracked := h.quiet quiet sound
      have right := enterWatched_right tracked tracer (f := .object) (fun _ _ _ => Answer.noConfusion)
        (x := fun l => do
          let v ← Watched.call l callee args
          Watched.onMachine (Run.inspect (v.unfold l)))
        (y := fun l => do
          let v ← Run.call l callee args
          Run.inspect (v.unfold l))
        (resting_of_watching (watching_callShown (w := ⟨⟨store', globals, tracer⟩, H, []⟩) h.linked
          (hv.mono (quiet.view_le library)) hargs))
      exact ⟨right.result, right.tracked, right.answer, right.moments,
        (lasts_of_quiet (m := ⟨name, library, store, globals⟩) quiet).trans right.lasts, right.grows,
        right.libraries⟩

theorem Tracked.get (h : m.Tracked H) (x : String) : ∀ table index, m.get x ≠ .error (.broken table index) := by
  have rules := Store.soundness_rules h.linked
  intro table index
  unfold Module.get
  obtain ⟨e, he⟩ | ⟨v, hv, known⟩ := h.lookup x
  · rw [he]
    intro broken
    cases broken
  · rw [hv]
    have agree := h.machine.sound.store.alike.unfold (rules.serves m.store) known
    show (v.unfold m.library m.store.heap >>= fun o => pure (some o)) ≠ _
    generalize v.unfold m.library m.store.heap = r at agree ⊢
    intro broken
    cases agree <;> cases broken

theorem stepWatched_set (h : m.Tracked H) (x : String) (o : Object) :
    (m.stepWatched H (.set x o)).Right m (m.step (.set x o)) := by
  have rules := Store.soundness_rules h.linked
  have built := ((rules.build (w := m.store) o).bind fun w₁ v v' _ hv =>
    (rules.learn x).bind fun w₂ _ _ hw₂ known =>
      .pure (R := fun (w : Store) p q => (w.view m.library).word x ∧ (w.view m.library).value p q)
        ⟨known, rules.value_mono hw₂ hv⟩) ⟨rfl, rfl, h.machine.sound.store⟩
  obtain ⟨name, library, store, globals⟩ := m
  simp only [stepWatched, step, set]
  generalize (do let v ← o.build; Store.learn x; return v : StoreM Value) store = r at built ⊢
  cases built with
  | raised e quiet states =>
    obtain ⟨rfl, -, sound⟩ := states
    exact right_of_tracked (h.quiet quiet sound) (Answer.raised_ne_broken _) (lasts_of_quiet quiet) (.refl _)
  | ok quiet states hv =>
    obtain ⟨rfl, -, sound⟩ := states
    have tracked := h.quiet quiet sound
    cases hf : globals.frozen with
    | true => exact right_of_tracked tracked (Answer.raised_ne_broken _) (lasts_of_quiet quiet) (.refl _)
    | false =>
      refine right_of_tracked ?_ (fun _ _ => Answer.noConfusion) ⟨fun settled => ?_, quiet.meter⟩ (.refl _)
      · refine ⟨tracked.linked, tracked.builtins, tracked.methods, tracked.draft,
          ⟨tracked.machine.sound.store, ?_⟩, tracked.machine.words, tracked.machine.tracks⟩
        exact tracked.machine.sound.globals.insert hv
      · exact absurd (hf.symm.trans settled.1) Bool.false_ne_true

/-- A word is met. -/
theorem Tracked.learn (h : m.Tracked H) (x : String) : (m.learn x).Tracked H :=
  h.quiet (Store.quiet_of_learn x) (h.machine.sound.store.learned x)

/-- A host function is added to the table. -/
theorem Tracked.addNative (h : m.Tracked H) {l : Library} (functions : l.functions = m.library.functions)
    (natives : m.library.natives.size ≤ l.natives.size) (linked : l.Linked)
    (builtins : ∀ {x id}, l.builtins.find? x = some id → x ∈ m.store.lexicon.words)
    (methods : ∀ {type x id}, l.method? type x = some id → x ∈ m.store.lexicon.words) :
    Tracked { m with library := l } H where
  linked := linked
  builtins := builtins
  methods := methods
  draft := functions ▸ h.draft
  machine := by
    have grows : m.library.Grows l := ⟨functions ▸ .refl _, natives⟩
    exact h.machine.mono grows (fun _ => id) (fun _ => id) fun _ => id

theorem Tracked.provide (h : m.Tracked H) (name : String) (native : HostFunction) :
    (m.provide name native).Tracked H := by
  refine (h.learn name).addNative (l := m.library.addBuiltin name native) rfl ?_ ⟨?_, ?_⟩ ?_ ?_
  · simp [Library.addBuiltin, Library.addNative, Module.learn]
  · intro x id hx
    simp only [Library.addBuiltin, Library.addNative, OrderedMap.find?_insert, Array.size_push] at hx ⊢
    split at hx
    · cases hx
      exact Nat.lt_succ_self _
    · exact Nat.lt_succ_of_lt (h.linked.builtin hx)
  · intro type x id hx
    simp only [Library.addBuiltin, Library.addNative, Array.size_push]
    exact Nat.lt_succ_of_lt (h.linked.method hx)
  · intro x id hx
    simp only [Library.addBuiltin, Library.addNative, OrderedMap.find?_insert] at hx
    split at hx
    · rename_i hname
      exact hname ▸ m.store.lexicon.mem_learn name
    · exact (h.learn name).builtins hx
  · intro type x id hx
    exact (h.learn name).methods hx

theorem Tracked.addMethod (h : m.Tracked H) (type : ValueType) (attr : String)
    (native : HostFunction) : (m.addMethod type attr native).Tracked H := by
  have method_cases {t : ValueType} {x : String} {id : NativeId}
      (hx : (m.library.addMethod type attr native).method? t x = some id) :
      (x = attr ∧ id.index = m.library.natives.size) ∨ m.library.method? t x = some id := by
    simp only [Library.addMethod, Library.addNative, Library.method?] at hx
    split at hx
    · rw [OrderedMap.find?_insert] at hx
      split at hx
      · rename_i hattr
        cases hx
        exact .inl ⟨hattr, rfl⟩
      · exact .inr hx
    · exact .inr hx
  have size : (m.library.addMethod type attr native).natives.size = m.library.natives.size + 1 :=
    Array.size_push _
  refine (h.learn attr).addNative (l := m.library.addMethod type attr native) rfl ?_ ⟨?_, ?_⟩ ?_ ?_
  · rw [size]
    exact Nat.le_succ _
  · intro x id hx
    rw [size]
    exact Nat.lt_succ_of_lt (h.linked.builtin hx)
  · intro t x id hx
    rw [size]
    obtain ⟨-, hid⟩ | hx := method_cases hx
    · omega
    · exact Nat.lt_succ_of_lt (h.linked.method hx)
  · intro x id hx
    exact (h.learn attr).builtins hx
  · intro t x id hx
    obtain ⟨rfl, -⟩ | hx := method_cases hx
    · exact m.store.lexicon.mem_learn x
    · exact (h.learn attr).methods hx

/-- Freezing changes no frame and no function value. -/
theorem cell?_freezeFrom_iff {heap : Heap} {roots : List Address} {a : Address} {c : Cell}
    (hc : c.kind = .frame ∨ c.kind = .closure) : (heap.freezeFrom roots).cell? a = some c ↔ heap.cell? a = some c := by
  obtain ha | ha := Heap.cell?_freezeFrom heap roots a <;> rw [ha]
  cases hd : heap.cell? a with
  | none => rfl
  | some d =>
    cases d <;> simp only [Option.map_some, Cell.freeze]
    all_goals
      constructor
      all_goals
        intro he
        cases he
        obtain hk | hk := hc <;> cases hk

theorem Tracked.freeze (h : m.Tracked H) : m.freeze.Tracked H where
  linked := h.linked
  builtins := h.builtins
  methods := h.methods
  draft := h.draft
  machine := by
    have machine := h.machine
    refine ⟨⟨machine.sound.store.frozen _, ?_⟩, machine.words, ?_⟩
    · exact machine.sound.globals.imp fun _ _ _ hv => hv.mono (Store.view_le_freezeFrom _ _ _)
    · exact machine.tracks.imp (fun hf => ⟨rfl, _, (cell?_freezeFrom_iff (.inl rfl)).2 hf⟩)
        (fun hg => ⟨_, (cell?_freezeFrom_iff (.inl rfl)).1 hg, rfl, fun _ _ hx => hx⟩)
        (fun hc => ⟨(cell?_freezeFrom_iff (.inr rfl)).1 hc, rfl⟩) rfl

/-- An object that cannot change is frozen already. -/
theorem freeze_eq_of_immutable {c : Cell} (h : ¬ c.Mutable) : c.freeze = c := by
  cases c with
  | list items frozen =>
    cases frozen with
    | true => rfl
    | false => exact absurd (.list items) h
  | dict entries frozen =>
    cases frozen with
    | true => rfl
    | false => exact absurd (.dict entries) h
  | _ => rfl

theorem lasts_freeze (m : Module) : Lasts m.globals m.heap m.freeze.globals m.freeze.heap := by
  refine ⟨fun settled => ⟨?_, fun {a} ha => ?_⟩, rfl⟩
  · show { m.globals with frozen := true } = m.globals
    rw [← settled.1]
  · obtain ⟨c, hc, immutable⟩ := settled.2 ha
    show (m.heap.freezeFrom m.globals.roots).cell? a = _
    rw [Heap.cell?_freezeFrom_of_reaches ha, hc, Option.map_some, freeze_eq_of_immutable immutable]

/-- A watched step does what the step does and keeps the module in order. -/
theorem stepWatched_right (h : m.Tracked H) (s : Step) : (m.stepWatched H s).Right m (m.step s) := by
  cases s with
  | exec tracer program => exact stepWatched_exec h tracer program
  | eval e => exact stepWatched_eval h e
  | call tracer name positional keywords => exact stepWatched_call h tracer name positional keywords
  | set x o => exact stepWatched_set h x o
  | get x =>
    refine right_of_tracked h (fun table index => ?_) (.refl _ _) (.refl _)
    have hget := h.get x table index
    show Answer.ofExcept _ ((m.get x).mapError _) ≠ _
    generalize m.get x = r at hget ⊢
    cases r with
    | ok o => cases o <;> exact Answer.noConfusion
    | error e =>
      cases e with
      | raised cause => exact Answer.raised_ne_broken _ _ _
      | broken t i =>
        intro same
        cases same
        exact hget rfl
  | addBuiltin name native =>
    exact right_of_tracked (h.provide name native) (fun _ _ => Answer.noConfusion) (.refl _ _) (.refl _)
  | addMethod type attr native =>
    exact right_of_tracked (h.addMethod type attr native) (fun _ _ => Answer.noConfusion) (.refl _ _) (.refl _)
  | freeze => exact right_of_tracked h.freeze (fun _ _ => Answer.noConfusion) (lasts_freeze m) (.refl _)
  | collect =>
    exact right_of_tracked h.collected (fun _ _ => Answer.noConfusion) (lasts_collect m.globals m.heap) (.refl _)
  | names => exact right_of_tracked h (fun _ _ => Answer.noConfusion) (.refl _ _) (.refl _)
  | name => exact right_of_tracked h (fun _ _ => Answer.noConfusion) (.refl _ _) (.refl _)
  | methodNames type => exact right_of_tracked h (fun _ _ => Answer.noConfusion) (.refl _ _) (.refl _)
  | isFrozen => exact right_of_tracked h (fun _ _ => Answer.noConfusion) (.refl _ _) (.refl _)
  | census => exact right_of_tracked h (fun _ _ => Answer.noConfusion) (.refl _ _) (.refl _)
  | usage => exact right_of_tracked h (fun _ _ => Answer.noConfusion) (.refl _ _) (.refl _)

/-! ## Sessions -/

/-- What holds of a session that starts with a module in order. -/
structure SessionRight (m : Module) (H : History) (steps : List Step) : Prop where
  result : (m.runWatched H steps).1 = m.run steps
  tracked : ∃ H', (m.run steps).2.Tracked H'
  answers : ∀ r ∈ (m.run steps).1, ∀ table index, r.answer ≠ .failed (.broken table index)
  moments : ∀ μ ∈ (m.runWatched H steps).2, μ.Proper
  lasts : Lasts m.globals m.heap (m.run steps).2.globals (m.run steps).2.heap
  grows : Extends m.library.functions (m.run steps).2.library.functions
  libraries : ∀ μ ∈ (m.runWatched H steps).2,
    Extends μ.activation.library.functions (m.run steps).2.library.functions

theorem SessionRight.kept {steps : List Step} (h : m.SessionRight H steps) :
    Kept m.globals m.heap (m.run steps).2.globals (m.run steps).2.heap := h.lasts.kept

/-- A watched session is the session, and keeps the module in order. -/
theorem session_right (h : m.Tracked H) (steps : List Step) : m.SessionRight H steps := by
  induction steps generalizing m H with
  | nil =>
    exact ⟨rfl, ⟨H, h⟩, List.forall_mem_nil _, List.forall_mem_nil _, .refl _ _, .refl _,
      List.forall_mem_nil _⟩
  | cons s steps ih =>
    have first := stepWatched_right h s
    have rest := ih first.tracked
    refine ⟨?_, rest.tracked, ?_, ?_, first.lasts.trans rest.lasts, first.grows.trans rest.grows, ?_⟩
    · simp only [runWatched, run, first.result, rest.result]
    · exact List.forall_mem_cons.2 ⟨first.answer, rest.answers⟩
    · simp only [runWatched, first.result, List.forall_mem_append]
      exact ⟨first.moments, rest.moments⟩
    · simp only [runWatched, first.result, List.forall_mem_append]
      exact ⟨fun μ hμ => (first.libraries μ hμ).trans rest.grows, rest.libraries⟩

end Module

end Scriptlet
