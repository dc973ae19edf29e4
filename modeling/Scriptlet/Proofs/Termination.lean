import Scriptlet.Proofs.Stepping.Halting

/-!
# Every execution terminates

Bodies of called functions are not part of the code that calls them, and a loop may change what it runs over. So
termination rests on three things together: the number of calls that may still be opened, the size of the code,
and that a loop takes its items before its first round.
-/

namespace Scriptlet

open Code (Stmt Target)
open Scriptlet.Configuration (start step)

/-- The recursive calls of a loop that has taken its items: an assignment and a run of the body for each item, in
the order of the items, up to some point. -/
theorem Plan.prefix_of_makes_rounds {l : Library} {limit depth : Nat} {frame : Option Address}
    {target : Target} {body : List Stmt} {items : List Value} {jobs : List Job}
    (made : (Plan.rounds frame target body items).Makes l limit depth jobs) :
    jobs <+: items.flatMap fun v => [⟨depth, .assign frame target v⟩, ⟨depth, .block frame body⟩] := by
  induction items generalizing jobs with
  | nil =>
    cases made
    exact List.nil_prefix
  | cons v vs ih =>
    rw [List.flatMap_cons]
    cases made with
    | nothing => exact List.nil_prefix
    | recur => exact ⟨_, rfl⟩
    | afterRecur _ more =>
      rw [List.cons_append, List.prefix_cons_inj]
      cases more with
      | nothing => exact List.nil_prefix
      | recur => exact ⟨_, rfl⟩
      | afterRecur flow more =>
        rw [List.cons_append, List.prefix_cons_inj, List.nil_append]
        cases flow with
        | leaveLoop =>
          cases more
          exact List.nil_prefix
        | result w =>
          cases more
          exact List.nil_prefix
        | next => exact ih more
        | nextRound => exact ih more

/-- Every execution terminates, for any library, state and limit. At each recursive call of the evaluator, the
pair of the number of calls that may still be opened and the size of the code that runs gets smaller in
lexicographic order. A loop takes its items once, before its first round, and its rounds are for these items. And
running a program, evaluating an expression and calling a value all halt after finitely many steps. -/
theorem execution_terminates (l : Library) (m : Machine) :
    (∀ j : Job, j.depth ≤ m.depthLimit → j.task.plan.EachCall l m.depthLimit j.depth fun k =>
      k.depth ≤ m.depthLimit ∧ Prod.Lex (· < ·) (· < ·)
        (m.depthLimit - k.depth, k.task.size) (m.depthLimit - j.depth, j.task.size)) ∧
    (∀ frame target iter body,
      (Task.exec frame (.loop target iter body)).plan =
        .recur (.eval frame iter) fun v => .ask (.items v) fun items =>
          .rounds frame target body items) ∧
    (∀ frame target body items depth jobs,
      (Plan.rounds frame target body items).Makes l m.depthLimit depth jobs →
        jobs <+: items.flatMap fun v =>
          [⟨depth, .assign frame target v⟩, ⟨depth, .block frame body⟩]) ∧
    (∀ program, ∃ n, (step l)^[n] (start (Task.program program).plan m) =
      .halted (Run.execTop l program m)) ∧
    (∀ e, ∃ n, (step l)^[n] (start (Task.eval none e).plan m) = .halted (Run.evalTop l e m)) ∧
    (∀ v args, ∃ n, (step l)^[n] (start (Task.call v args).plan m) = .halted (Run.call l v args m)) := by
  refine ⟨?_, ?_, ?_, ?_, ?_, ?_⟩
  · intro j h
    exact j.task.smaller_plan h
  · intro frame target iter body
    rfl
  · intro frame target body items depth jobs made
    exact Plan.prefix_of_makes_rounds made
  · intro program
    exact (Task.program program).halts l m
  · intro e
    exact (Task.eval none e).halts l m
  · intro v args
    exact (Task.call v args).halts l m

end Scriptlet
