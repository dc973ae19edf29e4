import Scriptlet.Budget.Duration

/-!
# Limits

What a host allows the programs of a module to use. Each limit may be left open; an open call depth means
the default depth.
-/

namespace Scriptlet.Budget

/-- The call depth if none is set. -/
def defaultDepth : Nat := 1000

/-- The nesting up to which data is compared, hashed and converted. -/
def maxDataDepth : Nat := 200

/-- The number of allocations between two collections if none is set. -/
def defaultCollectionInterval : Nat := 100000

/-- The limits of a module. -/
structure Limits where
  /-- Statements started, over the life of the module. -/
  maxOperations : Option Nat := none
  /-- Heap allocations, over the life of the module. -/
  maxAllocations : Option Nat := none
  /-- Running time. -/
  maxDuration : Option Duration := none
  /-- Bytes on the heap, as estimated. -/
  maxMemory : Option Nat := none
  /-- Allocations between two collections. -/
  collectionInterval : Option Nat := none
  /-- Calls that are open at once. -/
  maxDepth : Option Nat := none
  deriving DecidableEq, Inhabited

namespace Limits

/-- Nothing is limited. -/
def unset : Limits := {}

/-- Only the call depth is limited, to its default. -/
def standard : Limits := { maxDepth := some defaultDepth }

/-- The call depth in force. -/
def depth (l : Limits) : Nat := l.maxDepth.getD defaultDepth

/-! ## Data -/

def toDatum (l : Limits) : Datum :=
  .record [
    ("max_operations", .ofOption .nat l.maxOperations),
    ("max_allocations", .ofOption .nat l.maxAllocations),
    ("max_duration", .ofOption Duration.toDatum l.maxDuration),
    ("max_memory", .ofOption .nat l.maxMemory),
    ("gc_interval", .ofOption .nat l.collectionInterval),
    ("max_recursion_depth", .ofOption .nat l.maxDepth)]

/-- An optional part: left open if it is absent or null. -/
def part? {α : Type} (read : Datum → Option α) : Option Datum → Option (Option α)
  | none => some none
  | some d => d.optional? read

/-- Reads a record of limits, or a list of them in the order of the fields. -/
def ofDatum? : Datum → Option Limits
  | .record r => do
    return {
      maxOperations := ← part? Datum.count? (Datum.field? "max_operations" r)
      maxAllocations := ← part? Datum.count? (Datum.field? "max_allocations" r)
      maxDuration := ← part? Duration.ofDatum? (Datum.field? "max_duration" r)
      maxMemory := ← part? Datum.count? (Datum.field? "max_memory" r)
      collectionInterval := ← part? Datum.count? (Datum.field? "gc_interval" r)
      maxDepth := ← part? Datum.count? (Datum.field? "max_recursion_depth" r) }
  | .list items => do
    guard (items.length ≤ 6)
    return {
      maxOperations := ← part? Datum.count? items[0]?
      maxAllocations := ← part? Datum.count? items[1]?
      maxDuration := ← part? Duration.ofDatum? items[2]?
      maxMemory := ← part? Datum.count? items[3]?
      collectionInterval := ← part? Datum.count? items[4]?
      maxDepth := ← part? Datum.count? items[5]? }
  | _ => none

/-- Sets one limit by its name in data; the call depth may also be opened again with null. -/
def set? (l : Limits) (name : String) (value : Datum) : Option Limits :=
  match name with
  | "max_operations" => value.count?.map fun n => { l with maxOperations := some n }
  | "max_allocations" => value.count?.map fun n => { l with maxAllocations := some n }
  | "max_duration" => (Duration.ofDatum? value).map fun d => { l with maxDuration := some d }
  | "max_memory" => value.count?.map fun n => { l with maxMemory := some n }
  | "gc_interval" => value.count?.map fun n => { l with collectionInterval := some n }
  | "max_recursion_depth" => (value.optional? Datum.count?).map fun n => { l with maxDepth := n }
  | _ => none

end Limits

end Scriptlet.Budget
