import Scriptlet.Code.Lexicon
import Scriptlet.Heap.Basic

/-!
# The store

The heap together with the words met so far: all that host functions and the conversion of host objects can
change.
-/

namespace Scriptlet

open Code (Lexicon)

/-- A heap and a lexicon. -/
structure Store where
  heap : Heap
  lexicon : Lexicon := {}
  deriving Inhabited

/-- A computation on a store. A failure keeps what was done before it. -/
abbrev StoreM := EStateM Failure Store

namespace Store

/-- Runs a computation on the heap of a store. -/
@[inline]
def onHeap {α : Type} (x : HeapM α) : StoreM α := fun ⟨heap, lexicon⟩ =>
  match x heap with
  | .ok a heap => .ok a ⟨heap, lexicon⟩
  | .error e heap => .error e ⟨heap, lexicon⟩

instance : MonadLift HeapM StoreM := ⟨onHeap⟩

/-- Looks at the heap. -/
@[inline]
def inspect {α : Type} (f : Heap → Attempt α) : StoreM α := onHeap (Heap.inspect f)

/-- Puts an object on the heap. -/
@[inline]
def allocate (c : Heap.Cell) : StoreM Value := do
  return .ref (← onHeap (Heap.allocate c))

/-- Meets a word. -/
def learn (w : String) : StoreM Unit := fun ⟨heap, lexicon⟩ =>
  .ok () ⟨heap, lexicon.learn w⟩

end Store

end Scriptlet
