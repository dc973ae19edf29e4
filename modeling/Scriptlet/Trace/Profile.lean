import Scriptlet.Data.OrderedMap
import Scriptlet.Text.Padded
import Scriptlet.Trace.Event

/-!
# Profiles

Counts over a run: how often each function was called, how many statements ran, how deep the calls went, how
many functions were made and how often a variable of an enclosing call was read.
-/

namespace Scriptlet.Trace

/-- The counts kept during a run. -/
structure Profile where
  calls : OrderedMap String Nat := .empty
  statements : Nat := 0
  maxDepth : Nat := 0
  totalCalls : Nat := 0
  functionsMade : Nat := 0
  outerLoads : Nat := 0
  deriving Inhabited

/-- The counts of a run in their final form. -/
structure Report where
  /-- The called functions, the most called first and those called equally often by name. -/
  callCounts : List (String × Nat)
  statements : Nat
  maxDepth : Nat
  totalCalls : Nat
  functionsMade : Nat
  outerLoads : Nat
  deriving DecidableEq, Inhabited

namespace Profile

/-- Counts an event. -/
def observe (p : Profile) : Event → Profile
  | .statement .. => { p with statements := p.statements + 1 }
  | .enter name depth =>
    { p with
      totalCalls := p.totalCalls + 1
      maxDepth := max p.maxDepth depth
      calls := p.calls.insert name ((p.calls.find? name).getD 0 + 1) }
  | .leave .. => p
  | .makeFunction .. => { p with functionsMade := p.functionsMade + 1 }
  | .outerLoad .. => { p with outerLoads := p.outerLoads + 1 }

/-- Whether a count comes before another in a report. -/
def before (a b : String × Nat) : Bool :=
  b.2 < a.2 || (a.2 == b.2 && !(b.1 < a.1))

/-- The report on what was counted. -/
def report (p : Profile) : Report where
  callCounts := p.calls.entries.mergeSort before
  statements := p.statements
  maxDepth := p.maxDepth
  totalCalls := p.totalCalls
  functionsMade := p.functionsMade
  outerLoads := p.outerLoads

end Profile

open Text (padLeft padRight) in
/-- The report as text, with the calls in two columns. -/
def Report.text (r : Report) : String :=
  "=== Call Profiling Report ===\n" ++
  s!"Statements:         {r.statements}\n" ++
  s!"Total calls:        {r.totalCalls}\n" ++
  s!"Max call depth:     {r.maxDepth}\n" ++
  s!"Functions created:  {r.functionsMade}\n" ++
  s!"Free variable reads: {r.outerLoads}\n" ++
  "\n" ++
  "--- Calls per function ---\n" ++
  String.join (r.callCounts.map fun c =>
    "  " ++ padRight 20 c.1 ++ " " ++ padLeft 10 (toString c.2) ++ "\n")

end Scriptlet.Trace
