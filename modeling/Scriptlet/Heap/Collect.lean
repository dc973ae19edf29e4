import Scriptlet.Heap.Mark

/-!
# Collection and freezing

A collection empties every slot that cannot be reached from the roots. Freezing makes every list and
dictionary that can be reached immutable.
-/

namespace Scriptlet.Heap

/-- The live objects without a mark, by ascending address. -/
def unreached (h : Heap) (marks : Array Bool) : List Address :=
  ((List.range h.slots.size).map Address.mk).filter fun a =>
    unmarked marks a && (h.cell? a).isSome

/-- Frees all objects that cannot be reached from the roots, and says how many. -/
def collect (h : Heap) (roots : List Address) : Nat × Heap :=
  let dead := h.unreached (h.mark roots)
  (dead.length, { dead.foldl discard h with sinceCollection := 0 })

/-- Freezes all objects that can be reached from the roots. -/
def freezeFrom (h : Heap) (roots : List Address) : Heap :=
  let marks := h.mark roots
  { h with
    slots := h.slots.mapIdx fun i slot =>
      if marks[i]? == some true then slot.map Cell.freeze else slot }

end Scriptlet.Heap
