import Scriptlet.Heap.Basic

/-!
# Reachable objects

The objects reachable from some roots are found by marking: an address that waits and is not marked yet is
marked and the addresses that its object refers to are made to wait. Each round marks a new slot, so there
are never more rounds than slots.
-/

namespace Scriptlet.Heap

/-- The heap objects that the object at an address refers to. -/
def children (h : Heap) (a : Address) : List Address :=
  match h.cell? a with
  | some c => c.children
  | none => []

/-- Whether a slot exists and is not marked. -/
def unmarked (marks : Array Bool) (a : Address) : Bool :=
  marks[a.index]? == some false

/-- Marks what can be reached from the waiting addresses, in at most so many rounds. -/
def markFrom (h : Heap) : (rounds : Nat) → (waiting : List Address) → Array Bool → Array Bool
  | 0, _, marks => marks
  | n + 1, waiting, marks =>
    match waiting.dropWhile fun a => !unmarked marks a with
    | [] => marks
    | a :: rest => h.markFrom n (h.children a ++ rest) (marks.setIfInBounds a.index true)

/-- For each slot, whether it can be reached from the roots. -/
def mark (h : Heap) (roots : List Address) : Array Bool :=
  h.markFrom h.slots.size roots (Array.replicate h.slots.size false)

end Scriptlet.Heap
