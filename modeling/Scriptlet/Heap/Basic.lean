import Scriptlet.Fault.Failure
import Scriptlet.Heap.Cell

/-!
# The heap

An arena of slots. An object stays in its slot until it is freed, and a freed slot is used again by a later
object, the one that was freed last first. Every object is charged to the meter when it comes and given back
when it goes, at the size it has then.
-/

namespace Scriptlet

open Budget (Meter)
open Heap (Cell Frame)

/-- A heap. -/
structure Heap where
  slots : Array (Option Cell) := #[]
  /-- The empty slots, the one emptied last first. -/
  free : List Address := []
  meter : Meter
  /-- Allocations since the last collection. -/
  sinceCollection : Nat := 0
  deriving Inhabited

/-- A computation on a heap. A failure keeps what was done before it. -/
abbrev HeapM := EStateM Failure Heap

namespace Heap

/-- A heap without objects. -/
def empty (meter : Meter) : Heap := { meter }

/-- The object at an address. -/
def cell? (h : Heap) (a : Address) : Option Cell :=
  match h.slots[a.index]? with
  | some slot => slot
  | none => none

/-- The object at an address that must hold one. -/
def read (h : Heap) (a : Address) : Attempt Cell :=
  match h.cell? a with
  | some c => .ok c
  | none => .error (.broken .heap a.index)

/-- Changes the object at an address in place. -/
def update (h : Heap) (a : Address) (f : Cell → Cell) : Heap :=
  { h with slots := h.slots.modify a.index (Option.map f) }

/-- Puts an object that has been paid for into a slot: the one emptied last, or a new one. -/
def place (c : Cell) : HeapM Address := fun h =>
  match h.free with
  | a :: free =>
    if a.index < h.slots.size then
      .ok a { h with slots := h.slots.setIfInBounds a.index (some c), free }
    else .error (.broken .heap a.index) h
  | [] => .ok ⟨h.slots.size⟩ { h with slots := h.slots.push (some c) }

/-- Puts an object on the heap, if the meter allows it. -/
def allocate (c : Cell) : HeapM Address := fun h =>
  match h.meter.charge c.size with
  | .error use => .error (.ofCause (.exhausted use)) h
  | .ok meter => place c { h with meter, sinceCollection := h.sinceCollection + 1 }

/-- Empties a slot. -/
def discard (h : Heap) (a : Address) : Heap :=
  match h.cell? a with
  | none => h
  | some c =>
    { h with
      slots := h.slots.setIfInBounds a.index none
      free := a :: h.free
      meter := h.meter.refund c.size }

/-- Frees the variables of a call that is over, unless a function made in the call may still use them. -/
def releaseFrame (a : Address) : HeapM Unit := fun h =>
  if h.slots.size ≤ a.index then .error (.broken .heap a.index) h
  else
    match h.cell? a with
    | some (.frame { captured := false, .. }) => .ok () (h.discard a)
    | _ => .ok () h

/-- Whether so many objects came since the last collection that another one is due. -/
def collectionDue (h : Heap) : Bool :=
  h.meter.collectionInterval.getD Budget.defaultCollectionInterval ≤ h.sinceCollection

/-- Looks at the heap without changing it. -/
def inspect {α : Type} (f : Heap → Attempt α) : HeapM α := fun h =>
  match f h with
  | .ok a => .ok a h
  | .error e => .error e.failure h

end Heap

end Scriptlet
