import Scriptlet.Proofs.Watch.Session

/-!
# What a call can change

Assignments inside a function only reach the variables of its own call, and the frame of that call is new. So a
call leaves no trace in the globals or in any frame that was there before. Of all objects that were there it can
change the items of lists and the entries of dictionaries that are not frozen, and nothing else.
-/

namespace Scriptlet

open Budget (Meter)
open Call (Args)
open Code (Draft)
open Heap (Cell)
open Trace (Tracer)

/-- The machine after a computation, whether it has a result or fails. -/
def Run.leaves {α : Type} (x : Run α) (m : Machine) : Machine :=
  match x m with
  | .ok _ m' => m'
  | .error _ m' => m'

/-- What becomes of an object: it stays as it is, or it is a container that is not frozen and has other
contents. -/
inductive Heap.Cell.Refilled : Cell → Cell → Prop where
  | same (c : Cell) : Refilled c c
  | list (items items' : Array Value) : Refilled (.list items false) (.list items' false)
  | dict (entries entries' : OrderedMap Key (Value × Value)) :
    Refilled (.dict entries false) (.dict entries' false)

/-- The second machine binds the same globals as the first and holds all of its objects, none of which has changed
but for the contents of containers that are not frozen. -/
structure Machine.Confined (m m' : Machine) : Prop where
  globals : m'.globals = m.globals
  heap : ∀ a c, m.store.heap.cell? a = some c →
    ∃ c', m'.store.heap.cell? a = some c' ∧ c'.kind = c.kind ∧ c.Refilled c'

/-- The calls of a session with the library and the machine that they start from: those that code makes while the
steps are answered, and those that the host can make next. -/
inductive Module.Calls (m : Module) (steps : List Step) :
    Library → Machine → Value → Args → Prop where
  | code {μ : Moment} {v : Value} {args : Args} (noted : μ ∈ (m.runWatched {} steps).2)
    (operands : μ.operands = v :: args.operands) :
    Calls m steps μ.activation.library μ.machine v args
  | host {x : String} {v : Value} {positional : List Object} {keywords : List (String × Object)}
    {args : Args} {store : Store} (tracer : Tracer)
    (callee : (m.run steps).2.globals.lookup (m.run steps).2.library x = .ok v)
    (built : buildArgs positional keywords (m.run steps).2.store = .ok args store) :
    Calls m steps (m.run steps).2.library ⟨store, (m.run steps).2.globals, tracer⟩ v args

section confined

variable {l : Library} {word : String → Prop} {H : History} {m : Machine}

theorem Watch.Later.confined {w w' : Watch} (later : Watch.Later none False w w') :
    w.machine.Confined w'.machine where
  globals := later.globals False.elim
  heap a c hc := by
    obtain ⟨c', hc', evolves⟩ := later.store.kept hc
    refine ⟨c', hc', evolves.kind_eq, ?_⟩
    cases evolves with
    | same => exact .same c
    | list vs ws => exact .list vs ws
    | dict es fs => exact .dict es fs
    | frame own => exact absurd own.symm (Option.some_ne_none a)

/-- A computation that cannot assign to globals and runs in no frame that was there before. -/
theorem Simulation.Runs.confined {α β : Type} {R : Watch → α → β → Prop} {x : Watched α} {y : Run β}
    (tracked : m.Tracked l word H)
    (runs : (watching l word False []).Runs ⟨m, H, []⟩ R x y) : m.Confined (y.leaves m) := by
  have ends := runs ⟨rfl, rfl, ⟨tracked, List.forall_mem_nil _⟩, Lineage.live_nil _ _⟩
  unfold Run.leaves
  generalize x ⟨m, H, []⟩ = p at ends
  generalize y m = q at ends ⊢
  cases ends with
  | ok later states =>
    obtain ⟨rfl, rfl, -⟩ := states
    exact Watch.Later.confined later
  | raised e later states =>
    obtain ⟨rfl, rfl, -⟩ := states
    exact Watch.Later.confined later

theorem Machine.Tracked.callWithin_confined (tracked : m.Tracked l word H) (hl : l.Linked) {v : Value}
    {args : Args} (hv : (m.store.view l).value v v) (hargs : (m.store.view l).args args args)
    (limit budget : Nat) : m.Confined ((Run.callWithin l limit budget v args).leaves m) :=
  (watching_callWithin (w := ⟨m, H, []⟩) hl limit budget hv hargs).confined tracked

end confined

/-- Arguments are in order if their values and their keywords are. -/
theorem args_of_operands {M : Matching} {args : Args} (h : M.values args.operands args.operands) :
    M.args args args := by
  obtain ⟨positional, keywords⟩ := args
  have split : ∀ v ∈ Args.operands ⟨positional, keywords⟩, M.value v v := List.forall₂_same.1 h
  simp only [Args.operands, List.forall_mem_append] at split
  refine ⟨List.forall₂_same.2 split.1, List.forall₂_same.2 fun e he => ?_⟩
  have name := split.2 (.text e.1) (List.mem_flatMap.2 ⟨e, he, by simp⟩)
  have value := split.2 e.2 (List.mem_flatMap.2 ⟨e, he, by simp⟩)
  cases name with
  | text known => exact ⟨rfl, known, value⟩

/-- A call that code makes at a moment of a run. -/
theorem Moment.Proper.callWithin_confined {μ : Moment} (proper : μ.Proper) {v : Value} {args : Args}
    (operands : μ.operands = v :: args.operands) (limit budget : Nat) :
    μ.machine.Confined ((Run.callWithin μ.activation.library limit budget v args).leaves μ.machine) := by
  obtain ⟨⟨word, right⟩, -, linked⟩ := proper
  have values := right.operands
  rw [operands] at values
  obtain ⟨hv, hargs⟩ := List.forall₂_cons.1 values
  exact right.tracked.callWithin_confined linked hv (args_of_operands hargs) limit budget

namespace Module

variable {m : Module} {H : History}

/-- A call that the host makes, once its arguments are on the heap. -/
theorem Tracked.callWithin_confined (h : m.Tracked H) {x : String} {v : Value}
    {positional : List Object} {keywords : List (String × Object)} {args : Args} {store : Store}
    (tracer : Tracer) (callee : m.globals.lookup m.library x = .ok v)
    (built : buildArgs positional keywords m.store = .ok args store) (limit budget : Nat) :
    Machine.Confined ⟨store, m.globals, tracer⟩
      ((Run.callWithin m.library limit budget v args).leaves ⟨store, m.globals, tracer⟩) := by
  have rules := Store.soundness_rules h.linked
  have ends := rules.buildArgs (w := m.store) positional keywords ⟨rfl, rfl, h.machine.sound.store⟩
  have hv : (m.store.view m.library).value v v := by
    obtain ⟨e, he⟩ | ⟨u, hu, known⟩ := h.lookup x
    · rw [callee] at he
      cases he
    · rw [callee] at hu
      cases hu
      exact known
  rw [built] at ends
  cases ends with
  | ok quiet states hargs =>
    obtain ⟨rfl, -, sound⟩ := states
    have tracked := (h.machine.quiet quiet sound).of_tracer tracer
    exact tracked.callWithin_confined h.linked (hv.mono (quiet.view_le m.library)) hargs limit budget

theorem globals_collectIfDue (m : Module) : m.collectIfDue.globals = m.globals := by
  unfold collectIfDue
  split <;> rfl

/-- Entering a module with a computation that cannot assign to globals. -/
theorem Tracked.globals_enter {α β : Type} (h : m.Tracked H) (tracer : Tracer)
    {R : Watch → β → α → Prop} {x : Watched β} {y : Library → Run α}
    (runs : (watching m.library (· ∈ m.store.lexicon.words) False []).Runs
      ⟨⟨m.store, m.globals, tracer⟩, H, []⟩ R x (y m.library)) : (m.enter tracer y).after.globals = m.globals := by
  have confined := runs.confined (h.machine.of_tracer tracer)
  obtain ⟨name, library, store, globals⟩ := m
  have same := confined.globals
  simp only [Run.leaves] at same
  simp only [enter]
  generalize y library ⟨store, globals, tracer⟩ = r at same ⊢
  cases r <;> exact (globals_collectIfDue _).trans same

theorem Tracked.globals_eval (h : m.Tracked H) (e : Program.Expr) : (m.eval e).after.globals = m.globals := by
  simp only [eval, resolve_eq]
  obtain ⟨code, d, new, hd, sound, hr⟩ | ⟨e, d, hd, -⟩ := Draft.resolveExpr_cases h.draft e
  · rw [hd]
    have tracked := h.withDraft sound hr.words (Code.extends_of_toList hr.functions)
    have asked := asked_of_resolved hr (l := (m.withDraft d).library) rfl
    exact tracked.globals_enter .silent (watching_evalShown tracked.linked code asked)
  · rw [hd]
    rfl

theorem Tracked.globals_call (h : m.Tracked H) (tracer : Tracer) (name : String)
    (positional : List Object) (keywords : List (String × Object)) :
    (m.call tracer name positional keywords).after.globals = m.globals := by
  have rules := Store.soundness_rules h.linked
  simp only [call]
  obtain ⟨e, he⟩ | ⟨callee, hc, hv⟩ := h.lookup name
  · rw [he]
  · rw [hc]
    have built := rules.buildArgs (w := m.store) positional keywords
      ⟨rfl, rfl, h.machine.sound.store⟩
    obtain ⟨name, library, store, globals⟩ := m
    generalize buildArgs positional keywords store = r at built ⊢
    cases built with
    | raised e quiet states => rfl
    | @ok _ args _ store' _ quiet states hargs =>
      obtain ⟨rfl, -, sound⟩ := states
      exact (h.quiet quiet sound).globals_enter tracer
        (watching_callShown h.linked (hv.mono (quiet.view_le library)) hargs)

end Module

/-- In every session a call, whether it returns or fails, leaves the globals as they are and changes no object that
was there, apart from the contents of containers that are not frozen. So evaluating an expression and calling a
global change no global. The watched session is the session itself. -/
theorem session_calls_confined (name : String) (meter : Meter) (steps : List Step) :
    let start := Module.create name meter
    let m := (start.run steps).2
    (start.runWatched {} steps).1 = start.run steps ∧
    (∀ library machine v args, start.Calls steps library machine v args → ∀ limit budget,
      machine.Confined ((Run.callWithin library limit budget v args).leaves machine)) ∧
    (∀ e, (m.step (.eval e)).2.globals = m.globals) ∧
    ∀ tracer x positional keywords,
      (m.step (.call tracer x positional keywords)).2.globals = m.globals := by
  have session := Module.session_right (Module.tracked_create name meter) steps
  obtain ⟨H, tracked⟩ := session.tracked
  refine ⟨session.result, fun library machine v args call limit budget => ?_, fun e => ?_,
    fun tracer x positional keywords => ?_⟩
  · cases call with
    | code noted operands => exact (session.moments _ noted).callWithin_confined operands limit budget
    | host tracer callee built => exact tracked.callWithin_confined tracer callee built limit budget
  · exact tracked.globals_eval e
  · exact tracked.globals_call tracer x positional keywords

/-- A session in which a function extends the list that it is given. -/
def extendingSession : List Step :=
  [.exec .silent [
    .assign (.name "items") (.list []),
    .define "extend" [.required "xs"] [.augment (.name "xs") .add (.list [.bool true])],
    .expr (.call (.name "extend") [.positional (.name "items")])]]

theorem session_calls_confined_extending :
    ∃ μ ∈ ((Module.create "m" (.depthOnly none)).runWatched {} extendingSession).2,
      μ.operands = Value.ref ⟨1⟩ :: Args.operands ⟨[.ref ⟨0⟩], []⟩ ∧ ∀ limit budget,
        μ.machine.Confined ((Run.callWithin μ.activation.library limit budget (.ref ⟨1⟩)
          ⟨[.ref ⟨0⟩], []⟩).leaves μ.machine) := by
  have called : [Value.ref ⟨1⟩, .ref ⟨0⟩] ∈
      ((Module.create "m" (.depthOnly none)).runWatched {} extendingSession).2.map (·.operands) := by
    decide +kernel
  obtain ⟨μ, noted, operands⟩ := List.mem_map.1 called
  exact ⟨μ, noted, operands, fun limit budget =>
    (session_calls_confined "m" (.depthOnly none) extendingSession).2.1 _ _ _ _
      (.code noted operands) limit budget⟩

end Scriptlet
