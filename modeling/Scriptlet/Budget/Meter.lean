import Scriptlet.Budget.Limits

/-!
# Metering

A meter counts what the programs of a module use and refuses what would go beyond the limits. There are
two kinds: one that only knows the call depth and counts nothing, and one with a full set of limits.

Time is counted in readings of the clock: two readings are at least a nanosecond apart, so a limit of no
time at all is exceeded by the first reading.
-/

namespace Scriptlet.Budget

/-- A use beyond a limit. -/
inductive Exceeded where
  | allocation (limit count : Nat)
  | operation (limit count : Nat)
  | time (limit elapsed : Duration)
  | memory (limit used : Nat)
  | depth (limit depth : Nat)
  deriving DecidableEq, Inhabited

/-- How a use beyond a limit is reported. -/
def Exceeded.message : Exceeded → String
  | .allocation limit count => s!"allocation limit exceeded: {count} > {limit}"
  | .operation limit count => s!"operation limit exceeded: {count} > {limit}"
  | .time limit elapsed => s!"time limit exceeded: {elapsed.text} > {limit.text}"
  | .memory limit used => s!"memory limit exceeded: {used} bytes > {limit} bytes"
  | .depth limit _ => s!"maximum recursion depth exceeded (limit {limit})"

/-- What has been used so far. -/
structure Counters where
  /-- Allocations that succeeded. -/
  allocations : Nat := 0
  /-- Statements that were asked for; counted only if they are limited. -/
  operations : Nat := 0
  /-- Bytes that are charged at present. -/
  memory : Nat := 0
  /-- Readings of the clock; read only if time is limited. -/
  readings : Nat := 0
  deriving DecidableEq, Inhabited

/-- A meter. -/
inductive Meter where
  /-- Limits the call depth and nothing else. -/
  | depthOnly (maxDepth : Option Nat)
  /-- Enforces limits and counts. -/
  | full (limits : Limits) (counters : Counters)
  deriving DecidableEq, Inhabited

namespace Meter

/-- A meter that starts counting. -/
def start (limits : Limits) : Meter := .full limits {}

/-- The call depth in force. -/
def depthLimit : Meter → Nat
  | .depthOnly maxDepth => maxDepth.getD defaultDepth
  | .full limits _ => limits.depth

/-- The number of allocations between two collections, if the host has set one. -/
def collectionInterval : Meter → Option Nat
  | .depthOnly _ => none
  | .full limits _ => limits.collectionInterval

/-- Charges an allocation of a given size. A refused allocation changes nothing. -/
def charge (size : Nat) : Meter → Except Exceeded Meter
  | .depthOnly maxDepth => .ok (.depthOnly maxDepth)
  | .full limits c =>
    match limits.maxAllocations.filter (· ≤ c.allocations) with
    | some limit => .error (.allocation limit (c.allocations + 1))
    | none =>
      match limits.maxMemory.filter (· < c.memory + size) with
      | some limit => .error (.memory limit (c.memory + size))
      | none =>
        .ok (.full limits
          { c with allocations := c.allocations + 1, memory := c.memory + size })

/-- Gives back the size of an object that was freed. The memory in use never falls below zero. -/
def refund (size : Nat) : Meter → Meter
  | .depthOnly maxDepth => .depthOnly maxDepth
  | .full limits c => .full limits { c with memory := c.memory - size }

/-- Counts a statement that is about to start. A refused statement is counted too. -/
def tick : Meter → Option Exceeded × Meter
  | .depthOnly maxDepth => (none, .depthOnly maxDepth)
  | .full limits c =>
    let c := if limits.maxOperations.isSome then { c with operations := c.operations + 1 } else c
    match limits.maxOperations.filter (· < c.operations) with
    | some limit => (some (.operation limit c.operations), .full limits c)
    | none =>
      let c := if limits.maxDuration.isSome then { c with readings := c.readings + 1 } else c
      match limits.maxDuration.filter (·.nanos < c.readings) with
      | some limit => (some (.time limit ⟨c.readings⟩), .full limits c)
      | none => (none, .full limits c)

/-- Whether one more call may be entered with `depth` calls open. -/
def checkDepth (m : Meter) (depth : Nat) : Except Exceeded Unit :=
  if m.depthLimit ≤ depth then .error (.depth m.depthLimit (depth + 1)) else .ok ()

/-- The counters, if the meter counts. -/
def counters? : Meter → Option Counters
  | .depthOnly _ => none
  | .full _ c => some c

/-- The limits, if the meter has a full set. -/
def limits? : Meter → Option Limits
  | .depthOnly _ => none
  | .full limits _ => some limits

end Meter

end Scriptlet.Budget
