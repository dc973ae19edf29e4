import Scriptlet.Proofs.Tracing.Runs

/-!
# Entries of the host as runs

Running a program and calling a global are runs of the stepping machine, once the program is resolved or the
arguments are built. If they are not, no event has happened.
-/

namespace Scriptlet

open Call (Args)
open Code (Stmt)
open Scriptlet.Configuration (Reaches start)

variable {m : Module} {s : Step} {l : Library} {c : Configuration Answer}

/-- The requests that run code, traced by a recorder without a limit. -/
inductive Step.Recorded : Step → Prop where
  | exec (program : List Program.Stmt) : Recorded (.exec .recorder program)
  | call (name : String) (positional : List Object) (keywords : List (String × Object)) :
      Recorded (.call .recorder name positional keywords)

namespace Plan

/-- Runs a program for the host. -/
def execEntry (code : List Stmt) : Plan Answer := do
  run (.program code)
  return .done

/-- Calls a value for the host. -/
def callEntry (callee : Value) (args : Args) : Plan Answer := do
  let v ← run (.call callee args)
  let o ← request (.unfold v)
  return .object o

end Plan

/-- The start of the run that answers a request, and the library that it runs with. There is none if the program
is refused, the name is not bound or the arguments cannot be built, and for requests that run no code. -/
def Module.start? (m : Module) : Step → Option (Library × Configuration Answer)
  | .exec tracer program =>
    match m.resolve (·.resolveProgram program) with
    | (.error _, _) => none
    | (.ok code, m) => some (m.library, .start (.execEntry code) ⟨m.store, m.globals, tracer⟩)
  | .call tracer name positional keywords =>
    match m.globals.lookup m.library name with
    | .error _ => none
    | .ok callee =>
      match buildArgs positional keywords m.store with
      | .error .. => none
      | .ok args store => some (m.library, .start (.callEntry callee args) ⟨store, m.globals, tracer⟩)
  | _ => none

/-- The reply of a run that has ended. -/
def Reply.ofResult : EStateM.Result Failure Machine Answer → Reply
  | .ok a m => ⟨a, m.tracer⟩
  | .error f m => ⟨.failed f, m.tracer⟩

/-! ## Replies -/

theorem Module.reply_enter {α : Type} (m : Module) (tracer : Trace.Tracer) (x : Library → Run α) (f : α → Answer) :
    (reply f (m.enter tracer x)).1 =
      .ofResult ((do let a ← x m.library; return f a : Run Answer) ⟨m.store, m.globals, tracer⟩) := by
  obtain ⟨name, library, store, globals⟩ := m
  simp only [Module.enter]
  cases ran : x library ⟨store, globals, tracer⟩ with
  | ok a m' =>
    rw [bind_of_ok ran]
    rfl
  | error e m' =>
    rw [bind_of_error ran]
    rfl

theorem bind_congr_of_eq {ε σ α β : Type} {x y : EStateM ε σ α} {s : σ} (h : x s = y s)
    (f : α → EStateM ε σ β) : (x >>= f) s = (y >>= f) s := by
  show EStateM.bind x f s = EStateM.bind y f s
  rw [EStateM.bind, EStateM.bind, h]

theorem Plan.outcome_execEntry (l : Library) (code : List Stmt) (m : Machine) :
    (execEntry code).outcome l m.depthLimit 0 m =
      (do let _ ← Run.execTop l code; return .done : Run Answer) m := by
  have ran : (Task.program code).outcome l m.depthLimit 0 m = Run.execTop l code m := rfl
  rw [execEntry, outcome_bind, outcome_run]
  exact bind_congr_of_eq ran _

theorem Plan.outcome_callEntry (l : Library) (callee : Value) (args : Args) (m : Machine) :
    (callEntry callee args).outcome l m.depthLimit 0 m =
      (do let o ← (do let v ← Run.call l callee args; Run.inspect (v.unfold l)); return .object o :
        Run Answer) m := by
  have called : (Task.call callee args).outcome l m.depthLimit 0 m = Run.call l callee args m := rfl
  rw [callEntry, outcome_bind, outcome_run, bind_assoc]
  exact bind_congr_of_eq called _

theorem Plan.permitted_execEntry (l : Library) (code : List Stmt) (limit : Nat) :
    (execEntry code).EachCall l limit 0 fun j => j.depth ≤ limit :=
  (EachCall.run (Nat.zero_le limit)).bind fun _ => .pure _

theorem Plan.permitted_callEntry (l : Library) (callee : Value) (args : Args) (limit : Nat) :
    (callEntry callee args).EachCall l limit 0 fun j => j.depth ≤ limit :=
  (EachCall.run (Nat.zero_le limit)).bind fun _ => (EachCall.request _).bind fun _ => .pure _

/-- The run of an entry halts with the reply to it, which is a failure only if the run fails. -/
theorem Module.start?_halts
    (h : m.start? s = some (l, c)) :
    ∃ r, Reaches l c (.halted r) ∧ (m.step s).1 = .ofResult r ∧ ∀ f m', r ≠ .ok (.failed f) m' := by
  cases s with
  | exec tracer program =>
    simp only [Module.start?] at h
    split at h
    · cases h
    · rename_i code m' resolved
      cases h
      refine ⟨_, Plan.halts _ (Plan.permitted_execEntry _ code _), ?_, ?_⟩
      · rw [Plan.outcome_execEntry, Module.step, Module.exec, resolved]
        exact Module.reply_enter m' tracer _ fun _ => .done
      · intro f m₁ failed
        rw [Plan.outcome_execEntry] at failed
        obtain ⟨_, _, -, done⟩ := bind_eq_ok.1 failed
        cases done
  | call tracer name positional keywords =>
    simp only [Module.start?] at h
    split at h
    · cases h
    · rename_i callee found
      split at h
      · cases h
      · rename_i args store built
        cases h
        refine ⟨_, Plan.halts _ (Plan.permitted_callEntry _ callee args _), ?_, ?_⟩
        · rw [Plan.outcome_callEntry, Module.step, Module.call, found]
          simp only [built]
          exact Module.reply_enter { m with store } tracer _ .object
        · intro f m₁ failed
          rw [Plan.outcome_callEntry] at failed
          obtain ⟨_, _, -, unfolded⟩ := bind_eq_ok.1 failed
          cases unfolded
  | _ => cases h

/-! ## Recorded entries -/

theorem Module.along_buildArgs (positional : List Object) (keywords : List (String × Object)) :
    Along Store.SameLimit (buildArgs positional keywords) :=
  (composed_buildArgs positional keywords).along Store.Primitive.along_sameLimit

theorem Module.failsAnew_buildArgs (positional : List Object) (keywords : List (String × Object)) :
    FailsAnew (buildArgs positional keywords) :=
  .of_composed (composed_buildArgs positional keywords) Store.Primitive.failsAnew

theorem Module.heap_resolve {α : Type} (m : Module) (resolver : Code.Draft → Except Fault.Malformed α × Code.Draft) :
    (m.resolve resolver).2.heap = m.heap := by
  obtain ⟨name, ⟨functions, natives, builtins, methods⟩, ⟨heap, lexicon⟩, globals⟩ := m
  rfl

/-- At the start of a recorded run no event has happened and no call is open. -/
theorem Module.start?_tracked (hs : s.Recorded) (h : m.start? s = some (l, c)) :
    c.Tracked l m.heap.meter.depthLimit ∧ ∃ p machine, c = start p machine := by
  cases hs with
  | exec program =>
    simp only [Module.start?] at h
    split at h
    · cases h
    · rename_i code m' resolved
      cases h
      have same := m.heap_resolve (·.resolveProgram program)
      rw [resolved] at same
      refine ⟨Configuration.tracked_start (Plan.permitted_execEntry _ code _) ?_, _, _, rfl⟩
      exact ⟨congrArg (·.meter.depthLimit) same, rfl, trivial, rfl⟩
  | call name positional keywords =>
    simp only [Module.start?] at h
    split at h
    · cases h
    · rename_i callee found
      split at h
      · cases h
      · rename_i args store built
        cases h
        have kept := Module.along_buildArgs positional keywords m.store
        rw [built] at kept
        cases kept with
        | ok same =>
          refine ⟨Configuration.tracked_start (Plan.permitted_callEntry _ callee args _) ?_, _, _, rfl⟩
          exact ⟨same, rfl, trivial, rfl⟩

/-- A recorded entry that starts no run fails without an event, and its failure has left no call. -/
theorem Module.start?_eq_none (hs : s.Recorded) (h : m.start? s = none) :
    ∃ f : Failure, f.Fresh ∧ (m.step s).1 = ⟨.failed f, .recorder⟩ := by
  cases hs with
  | exec program =>
    simp only [Module.start?] at h
    split at h
    · rename_i defect m' resolved
      refine ⟨.ofCause (.malformed defect), rfl, ?_⟩
      rw [Module.step, Module.exec, resolved]
      rfl
    · cases h
  | call name positional keywords =>
    simp only [Module.start?] at h
    split at h
    · rename_i e found
      refine ⟨e.failure, e.fresh, ?_⟩
      rw [Module.step, Module.call, found]
      rfl
    · rename_i callee found
      split at h
      · rename_i e store built
        have kept := Module.failsAnew_buildArgs positional keywords m.store
        rw [built] at kept
        cases kept with
        | error fresh =>
          refine ⟨e, fresh, ?_⟩
          rw [Module.step, Module.call, found]
          simp only [built]
          rfl
      · cases h

/-! ## A host function that fails two calls deep -/

/-- A function that asks for the length of its argument, and a call of it with none, which has no length. -/
def lengthOfNone : List Program.Stmt :=
  [.define "f" [.required "x"] [.giveBack (some (.call (.name "len") [.positional (.name "x")]))],
    .expr (.call (.name "f") [.positional .none])]

/-- A module with the host function that gives lengths. -/
def lengthModule : Module := (Module.create "m" (.depthOnly none)).addBuiltin "len" .length

end Scriptlet
