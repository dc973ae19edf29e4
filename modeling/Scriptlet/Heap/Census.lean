import Scriptlet.Heap.Basic

/-!
# Census

How many objects there are, by sort, and how the slots are used.
-/

namespace Scriptlet.Heap

/-- A count of the heap. -/
structure Census where
  live : Nat
  free : Nat
  total : Nat
  /-- The sorts of which there is an object, with their numbers. -/
  byKind : List (CellKind × Nat)
  deriving DecidableEq

/-- The live objects. -/
def cells (h : Heap) : List Cell := h.slots.toList.filterMap id

/-- Counts the heap. -/
def census (h : Heap) : Census :=
  let kinds := h.cells.map Cell.kind
  { live := kinds.length
    free := h.free.length
    total := h.slots.size
    byKind := (CellKind.all.map fun k => (k, kinds.count k)).filter (0 < ·.2) }

end Scriptlet.Heap
