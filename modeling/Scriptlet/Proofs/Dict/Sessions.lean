import Scriptlet.Proofs.Correspondence
import Scriptlet.Proofs.Dict.Keeping
import Scriptlet.Proofs.Watch.Session

/-!
# Heaps stay keyed in every session

What is true of the operations between two collections is carried through the runs of code: first to the primitive
operations of the machine, then to code that makes calls, then to the calls themselves, and from there to all that a
host can ask of a module. A watched run notes each moment at which code asks something, and the heap is keyed at all
of them.
-/

namespace Scriptlet

open Call (Args)
open Code (Need)
open Heap (Cell StaysKeyed Steady)

/-! ## Runs of the machine -/

/-- The heap of the machine stays keyed. -/
abbrev Machine.Keeps : Machine → Machine → Prop :=
  Holding (fun m => m.store.heap) fun m => m.store.heap.Keyed

theorem Heap.staysKeyed_meter (h : Heap) (meter : Budget.Meter) : h.StaysKeyed { h with meter } := by
  intro keyed
  have same (v : Value) : v.key { h with meter } = v.key h := v.key_unmetered h meter
  refine ⟨⟨⟨keyed.tidy.mem_free_iff, keyed.tidy.nodup⟩, fun a c hc => ?_⟩, fun a c hc _ => hc⟩
  have before := keyed.cells a c hc
  cases c with
  | dict entries frozen => exact fun e he => (same _).trans (before e he)
  | _ => trivial

namespace Run

open Machine (Keeps)

variable {α : Type} {depth : Nat} {x : StoreM α}

theorem keeps_onStore (hx : Along Store.Keeps x) : Along Keeps (onStore x) :=
  fun m => ends_onStore (hx m.store) fun _ h => h

/-- An operation on the store that is composed of steady ones. -/
theorem keeps_operation (hx : Composed (Store.Over Steady) x) : Along Keeps (onStore x) :=
  keeps_onStore (Store.keeps_of_composed hx)

theorem keeps_inspect {f : Heap → Attempt α} (hf : Looks f) : Along Keeps (inspect f) :=
  keeps_operation (Store.composed_inspect hf)

theorem keeps_tick : Along Store.Keeps (Store.onHeap tick) := by
  rintro ⟨⟨slots, free, meter, sinceCollection⟩, lexicon⟩
  have kept (meter' : Budget.Meter) :
      Heap.StaysKeyed ⟨slots, free, meter, sinceCollection⟩ ⟨slots, free, meter', sinceCollection⟩ :=
    Heap.staysKeyed_meter _ meter'
  simp only [Store.onHeap, tick]
  rcases meter.tick with ⟨_ | use, meter'⟩
  · exact .ok (kept meter')
  · exact .error (kept meter')

theorem keeps_observe (e : Trace.Event) : Along Keeps (observe e) :=
  fun m => .ok (refl (r := StaysKeyed) m.store.heap)

theorem Over.keeps {x : Run α} (h : Over Steady depth α x) : Along Keeps x := by
  cases h with
  | onStore hx => exact keeps_operation hx
  | @observe e aside => exact keeps_observe e
  | begin kind => exact (keeps_onStore keeps_tick).bind fun _ => keeps_observe _
  | loadGlobal l x =>
    intro m
    unfold Run.loadGlobal
    cases m.globals.lookup l x with
    | ok v => exact .ok (refl m)
    | error e => exact .error (refl m)
  | storeGlobal x v =>
    rintro ⟨store, globals, tracer⟩
    unfold Run.storeGlobal
    by_cases frozen : globals.frozen
    · simp only [if_pos frozen]
      exact .error (refl _)
    · simp only [if_neg frozen]
      exact .ok (refl (r := StaysKeyed) store.heap)

theorem keeps_of_composed {x : Run α} (h : Composed (Over Steady depth) x) : Along Keeps x :=
  h.related Along.congruence Over.keeps

theorem keeps_release (a : Address) : Along Keeps (onStore (Store.onHeap (Heap.releaseFrame a))) :=
  keeps_onStore (Store.along_onHeap (Heap.along_staysKeyed_releaseFrame a))

theorem keeps_callNative (l : Library) (depth : Nat) (id : NativeId) (receiver : Option Value) (args : Args) :
    Along Keeps (callNative l depth id receiver args) := by
  refine (keeps_inspect (.const _)).bind fun e => ?_
  have ran : Along (Store.Via StaysKeyed) (e.native.run l { name := e.name, receiver, args }) :=
    HostCode.along_run_of_builds (fun h => h.along Steady.along) (fun o => o.keeps_buildWithin _) l _ _ []
  have left : Along Keeps (do observe (.leave e.name (depth - 1)); return) :=
    (keeps_observe _).bind fun _ => Along.congruence.pure ()
  exact (keeps_observe _).bind fun _ => Along.guarded e.name (keeps_onStore ran) left

end Run

/-! ## Watched runs -/

theorem PairsRelated.left {σ τ : Type} {P : {α : Type} → EStateM Failure σ α → Prop}
    {xs : List (EStateM Failure σ Value × EStateM Failure σ Value)}
    {ys : List (EStateM Failure τ Value × EStateM Failure τ Value)}
    (related : PairsRelated (fun _ x _ => P x) xs ys) : ∀ x ∈ xs, P x.1 ∧ P x.2 := by
  induction related with
  | nil => exact List.forall_mem_nil _
  | cons head _ ih => exact List.forall_mem_cons.2 ⟨head, ih⟩

/-- The heap of the machine is keyed now and was so at all moments that were noted. -/
structure Watch.Keyed (w : Watch) : Prop where
  now : w.machine.store.heap.Keyed
  moments : ∀ μ ∈ w.moments, μ.machine.store.heap.Keyed

/-- The heap of a watched machine stays keyed. -/
abbrev Watch.Keeps : Watch → Watch → Prop := Holding (fun w => w.machine.store.heap) Watch.Keyed

namespace Watched

open Watch (Keeps)

variable {α : Type} {act : Activation} {L : Lineage} {call : Value → Args → Watched Value} {x : Run α}

theorem ends_onMachine {w : Watch} (ends : Along.Ends Machine.Keeps w.machine (x w.machine)) :
    Along.Ends Keeps w (onMachine x w) := by
  obtain ⟨machine, history, moments⟩ := w
  simp only [onMachine] at ends ⊢
  generalize x machine = r at ends ⊢
  cases ends with
  | ok rel => exact .ok fun keyed => ⟨⟨(rel keyed.now).1, keyed.moments⟩, (rel keyed.now).2⟩
  | error rel => exact .error fun keyed => ⟨⟨(rel keyed.now).1, keyed.moments⟩, (rel keyed.now).2⟩

theorem keeps_onMachine (hx : Along Machine.Keeps x) : Along Keeps (onMachine x) :=
  fun w => ends_onMachine (hx w.machine)

theorem keeps_note (act : Activation) (L : Lineage) (need : Option Need) (operands : List Value) :
    Along Keeps (note act L need operands) :=
  fun _ => .ok fun keyed =>
    ⟨⟨keyed.now, List.forall_mem_cons.2 ⟨keyed.now, keyed.moments⟩⟩, fun _ _ hc _ => hc⟩

theorem keeps_record (f : History → History) : Along Keeps (record f) :=
  fun _ => .ok fun keyed => ⟨⟨keyed.now, keyed.moments⟩, fun _ _ hc _ => hc⟩

theorem keeps_during (need : Option Need) (operands : List Value) (hx : Along Machine.Keeps x) :
    Along Keeps (during act L need operands x) :=
  (keeps_note act L need operands).bind fun _ => keeps_onMachine hx

theorem keeps_openCall (id : FunctionId) (frame : Address) (maker : Lineage) (params : List String) (callee : Value)
    (args : Args) : Along Keeps (openCall id frame maker params callee args) :=
  fun _ => .ok fun keyed => ⟨⟨keyed.now, keyed.moments⟩, fun _ _ hc _ => hc⟩

theorem key_of_onMachine {v : Value} {k : Key} {w w' : Watch}
    (taken : onMachine (Run.inspect v.key) w = .ok k w') : v.key w'.machine.store.heap = .ok k := by
  obtain ⟨machine, history, moments⟩ := w
  simp only [onMachine] at taken
  cases ran : Run.inspect v.key machine with
  | ok k' machine' =>
    rw [ran] at taken
    cases taken
    obtain ⟨hashed, rfl⟩ := Run.inspect_eq_ok.1 ran
    exact hashed
  | error e machine' =>
    rw [ran] at taken
    cases taken

theorem keeps_display {xs : List (Watched Value × Watched Value)} (all : ∀ x ∈ xs, Along Keeps x.1 ∧ Along Keeps x.2) :
    Along Keeps (displayDict (act.watched L call).key (act.watched L call).dict .empty xs) := by
  intro w
  refine along_display (fun v => ?_) (fun v w k w' taken => ?_) (fun es w keyed => ?_) all (fun e mem => ?_)
  · exact keeps_during none [v] (Run.keeps_inspect v.looks_key)
  · obtain ⟨_, w₁, noted, taken⟩ := bind_eq_ok.1 taken
    exact key_of_onMachine taken
  · refine Along.ends_bind (keeps_note act L none _) fun _ w₁ noted _ => ends_onMachine ?_
    cases noted
    exact Run.ends_onStore (Store.keeps_makeDict keyed) fun _ h => h
  · cases mem

/-- Code keeps the heap keyed if the calls that it makes do. -/
theorem corresponds_keeps (calls : ∀ v args, Along Keeps (call v args)) :
    (act.watched L call).Corresponds (fun _ x _ => Along Keeps x) (act.watched L call) where
  toCongruence := Along.congruence
  load x := keeps_during _ _ (Run.keeps_of_composed (act.composed_load x))
  store x v := (keeps_during _ _ (Run.keeps_of_composed (act.composed_store x v))).bind fun _ => keeps_record _
  list _ := keeps_during _ _ (Run.keeps_operation (Store.composed_make rfl))
  tuple _ := keeps_during _ _ (Run.keeps_operation (Store.composed_make rfl))
  display related := keeps_display related.left
  item v i := keeps_during _ _ (Run.keeps_inspect (v.looks_item i))
  setItem v i w := keeps_during _ _ (Run.keeps_operation (Store.composed_onHeap (v.composed_setItem i w)))
  attr v x := keeps_during _ _ (Run.keeps_operation (Store.composed_readAttr act.library v x))
  binary op v w := keeps_during _ _ (Run.keeps_operation (Store.composed_onHeap (v.composed_binary op w)))
  augment op v w := keeps_during _ _ (Run.keeps_operation (Store.composed_onHeap (v.composed_augment op w)))
  compare op v w := keeps_during _ _ (Run.keeps_inspect (v.looks_holds op w))
  negate v := keeps_during _ _ (Run.keeps_inspect (fun _ _ => by rfl))
  truthy v := keeps_during _ _ (Run.keeps_inspect (fun _ _ => by rfl))
  items v := keeps_during _ _ (Run.keeps_inspect (fun _ _ => by rfl))
  keywords v := keeps_during _ _ (Run.keeps_operation (Store.composed_spreadKeywords v))
  function id defaults := by
    have made : Composed (Run.Over Steady act.depth) (act.makeFunction id defaults) :=
      act.composed_makeFunction_of_capture (Heap.composed_steady_captureFrame act.frame) id defaults
    refine (keeps_during _ _ (Run.keeps_of_composed made)).bind fun v => ?_
    exact (keeps_record _).bind fun _ => Along.congruence.pure v
  call v args := (keeps_note _ _ _ _).bind fun _ => calls v args
  begin kind := keeps_during _ _ (Run.keeps_of_composed (act.composed_begin kind))

theorem keeps_callFunction (l : Library) (depth : Nat) (plain : Value → Args → Run Value)
    (calls : ∀ v args, Along Keeps (call v args)) (callee : Value) (maker : Lineage) (c : Heap.Closure) (args : Args) :
    Along Keeps (callFunction l depth plain call callee maker c args) := by
  refine (keeps_onMachine (Run.keeps_inspect (.const _))).bind fun f => ?_
  have binds : Composed Steady (f.signature.bind f.name c.defaults args) :=
    f.signature.composed_bind f.name c.defaults args
  refine (keeps_onMachine (Run.keeps_operation (Store.composed_onHeap binds))).bind fun bindings => ?_
  refine (keeps_onMachine (Run.keeps_operation (Store.composed_onHeap (.primitive (.newFrame _))))).bind fun a => ?_
  refine (keeps_openCall _ _ _ _ _ _).bind fun r => ?_
  refine (keeps_onMachine (Run.keeps_observe _)).bind fun _ => ?_
  refine Along.guarded f.name ?_ ?_
  · exact (keeps_note _ _ _ _).bind fun _ => (corresponds_keeps calls).execBody f.body
  · exact keeps_onMachine ((Run.keeps_observe _).bind fun _ => Run.keeps_release a)

theorem keeps_callWithin (l : Library) (limit budget : Nat) (v : Value) (args : Args) :
    Along Keeps (callWithin l limit budget v args) := by
  induction budget generalizing v args with
  | zero =>
    have refused : Along Machine.Keeps (Run.callWithin l limit 0 v args) := by
      rw [Run.callWithin_zero]
      exact (Run.keeps_inspect (fun _ _ => by rfl)).bind fun _ => Along.congruence.raise _
    exact keeps_onMachine refused
  | succ budget ih =>
    refine (keeps_onMachine (Run.keeps_inspect (fun _ _ => by rfl))).bind fun callee => ?_
    cases callee with
    | function c =>
      refine Along.bind (fun w => .ok (refl w)) fun maker => ?_
      exact keeps_callFunction l (limit - budget) _ ih v maker c args
    | native id receiver => exact keeps_onMachine (Run.keeps_callNative l (limit - budget) id receiver args)

theorem corresponds_topLevel (l : Library) (limit : Nat) :
    (topLevel l limit).Corresponds (fun _ x _ => Along Keeps x) (topLevel l limit) :=
  corresponds_keeps (keeps_callWithin l limit limit)

end Watched

/-- A watched machine is keyed if it was. A collection frees strings and tuples, so more cannot be said of programs. -/
def Watch.Rests (w w' : Watch) : Prop := w.Keyed → w'.Keyed

instance : IsPreorder Watch Watch.Rests where
  refl _ := id
  trans _ _ _ first second := second ∘ first

namespace Watched

open Watch (Rests)

variable {α : Type}

theorem rests_of_keeps {x : Watched α} (hx : Along Watch.Keeps x) : Along Rests x :=
  fun w => (hx w).imp fun _ rel keyed => (rel keyed).1

theorem rests_collectIfDue : Along Rests (onMachine Run.collectIfDue) := by
  rintro ⟨⟨⟨heap, lexicon⟩, globals, tracer⟩, history, moments⟩
  refine .ok fun keyed => ⟨?_, keyed.moments⟩
  by_cases due : heap.collectionDue
  · simp only [if_pos due]
    exact keyed.now.collect globals.roots
  · simp only [if_neg due]
    exact keyed.now

theorem rests_execAll (l : Library) (limit : Nat) (stmts : List Code.Stmt) :
    Along Rests (execAll (topLevel l limit) stmts) := by
  induction stmts with
  | nil => exact Along.congruence.pure ()
  | cons s ss ih =>
    refine (rests_of_keeps ((corresponds_topLevel l limit).execBlock [s])).bind fun _ => ?_
    exact rests_collectIfDue.bind fun _ => ih

theorem rests_unfold (l : Library) (v : Value) : Along Rests (onMachine (Run.inspect (v.unfold l))) :=
  rests_of_keeps (keeps_onMachine (Run.keeps_inspect (v.looks_unfold l)))

end Watched

/-! ## Sessions -/

/-- The heap is keyed after a watched step and was so at all moments that were noted. -/
structure Watching.Keyed (w : Watching) : Prop where
  after : w.result.2.heap.Keyed
  moments : ∀ μ ∈ w.moments, μ.machine.store.heap.Keyed

namespace Module

variable {m : Module}

theorem keyed_collectIfDue (keyed : m.heap.Keyed) : m.collectIfDue.heap.Keyed := by
  unfold collectIfDue
  split
  · exact keyed.collect m.globals.roots
  · exact keyed

theorem keyed_enterWatched {α : Type} (keyed : m.heap.Keyed) (H : History) (tracer : Trace.Tracer) (f : α → Answer)
    {x : Library → Watched α} (hx : Along Watch.Rests (x m.library)) : (m.enterWatched H tracer f x).Keyed := by
  obtain ⟨name, library, store, globals⟩ := m
  have ends := hx ⟨⟨store, globals, tracer⟩, H, []⟩
  have start : Watch.Keyed ⟨⟨store, globals, tracer⟩, H, []⟩ := ⟨keyed, List.forall_mem_nil _⟩
  simp only [enterWatched]
  generalize x library ⟨⟨store, globals, tracer⟩, H, []⟩ = r at ends ⊢
  have collected {w : Watch} (rel : Watch.Rests ⟨⟨store, globals, tracer⟩, H, []⟩ w) :
      (collectIfDue ⟨name, library, w.machine.store, w.machine.globals⟩).heap.Keyed :=
    keyed_collectIfDue (m := ⟨name, library, w.machine.store, w.machine.globals⟩) (rel start).now
  cases ends with
  | ok rel => exact ⟨collected rel, (rel start).moments⟩
  | error rel => exact ⟨collected rel, (rel start).moments⟩

theorem keeps_buildArgs (positional : List Object) (keywords : List (String × Object)) :
    Along Store.Keeps (buildArgs positional keywords) := by
  refine (Along.mapM (fun o => o.keeps_buildWithin _) positional).bind fun vs => ?_
  refine (Along.mapM (fun p => ?_) keywords).bind fun named => Along.congruence.pure _
  refine (p.2.keeps_buildWithin _).bind fun v => ?_
  exact (Store.keeps_of_composed (Store.composed_learn p.1)).bind fun _ => Along.congruence.pure _

theorem keyed_set (keyed : m.heap.Keyed) (x : String) (o : Object) : (m.set x o).2.heap.Keyed := by
  obtain ⟨name, library, store, globals⟩ := m
  have built : Along Store.Keeps (do let v ← o.build; Store.learn x; return v) :=
    (o.keeps_buildWithin _).bind fun v =>
      (Store.keeps_of_composed (Store.composed_learn x)).bind fun _ => Along.congruence.pure v
  have ends := built store
  simp only [set]
  generalize (do let v ← o.build; Store.learn x; return v : StoreM Value) store = r at ends ⊢
  cases ends with
  | ok rel =>
    simp only
    split
    · exact (rel keyed).1
    · exact (rel keyed).1
  | error rel => exact (rel keyed).1

theorem keyed_stepWatched (keyed : m.heap.Keyed) (H : History) (s : Step) : (m.stepWatched H s).Keyed := by
  have quiet {w : Watching} (after : w.result.2.heap.Keyed) (none : w.moments = []) : w.Keyed :=
    ⟨after, none ▸ List.forall_mem_nil _⟩
  cases s with
  | exec tracer program =>
    simp only [stepWatched, resolve_eq]
    generalize Code.Draft.resolveProgram ⟨m.store.lexicon, m.library.functions⟩ program = resolved
    obtain ⟨result, d⟩ := resolved
    cases result with
    | error defect => exact quiet keyed rfl
    | ok code =>
      exact keyed_enterWatched (m := m.withDraft d) keyed H tracer _ fun w => Watched.rests_execAll _ _ code w
  | eval e =>
    simp only [stepWatched, resolve_eq]
    generalize Code.Draft.resolveExpr ⟨m.store.lexicon, m.library.functions⟩ e = resolved
    obtain ⟨result, d⟩ := resolved
    cases result with
    | error defect => exact quiet keyed rfl
    | ok code =>
      refine keyed_enterWatched (m := m.withDraft d) keyed H .silent _ (Along.bind ?_ (Watched.rests_unfold _))
      exact fun w => Watched.rests_of_keeps ((Watched.corresponds_topLevel _ _).eval code) w
  | call tracer x positional keywords =>
    simp only [stepWatched]
    cases m.globals.lookup m.library x with
    | error e => exact quiet keyed rfl
    | ok callee =>
      obtain ⟨name, library, store, globals⟩ := m
      have ends := keeps_buildArgs positional keywords store
      simp only
      generalize buildArgs positional keywords store = r at ends ⊢
      cases ends with
      | error rel => exact quiet (rel keyed).1 rfl
      | @ok args store' rel =>
        refine keyed_enterWatched (m := ⟨name, library, store', globals⟩) (rel keyed).1 H tracer _
          (Along.bind ?_ (Watched.rests_unfold _))
        exact fun w => Watched.rests_of_keeps (Watched.keeps_callWithin library _ _ callee args) w
  | set x o => exact quiet (keyed_set keyed x o) rfl
  | freeze => exact quiet (Heap.staysKeyed_freezeFrom m.heap m.globals.roots keyed).1 rfl
  | collect => exact quiet (keyed.collect m.globals.roots) rfl
  | _ => exact quiet keyed rfl

/-- From a keyed heap on, the heap is keyed at all moments of a session and after it. -/
theorem keyed_runWatched (keyed : m.heap.Keyed) (H : History) (steps : List Step) :
    (m.runWatched H steps).1.2.heap.Keyed ∧
      ∀ μ ∈ (m.runWatched H steps).2, μ.machine.store.heap.Keyed := by
  induction steps generalizing m H with
  | nil => exact ⟨keyed, List.forall_mem_nil _⟩
  | cons s ss ih =>
    have first := keyed_stepWatched keyed H s
    obtain ⟨after, rest⟩ := ih first.after (m.stepWatched H s).history
    exact ⟨after, List.forall_mem_append.2 ⟨first.moments, rest⟩⟩

end Module

end Scriptlet
