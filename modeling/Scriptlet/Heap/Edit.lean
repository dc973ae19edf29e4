import Scriptlet.Heap.Basic

/-!
# Changes in place

All that a program can do to an object that is there already: change the items of a list, bind a key of a
dictionary, assign a variable of a call, and note that a function was made in a call. None of them moves the
object or makes it another sort of object.
-/

namespace Scriptlet.Heap

/-- A change of a container. -/
inductive Edit where
  /-- Puts a value at a place of a list. -/
  | setItem (i : Nat) (v : Value)
  /-- Adds values at the end of a list. -/
  | extend (vs : List Value)
  /-- Removes all items of a list. -/
  | clear
  /-- Binds a key of a dictionary, where `index` is the value that the key stands for. -/
  | setEntry (k : Key) (index v : Value)
  deriving DecidableEq, Inhabited

/-- The container after a change. A change that is not for its sort leaves it as it is. -/
def Edit.apply : Edit → Cell → Cell
  | .setItem i v, .list items frozen => .list (items.setIfInBounds i v) frozen
  | .extend vs, .list items frozen => .list (items ++ vs) frozen
  | .clear, .list _ frozen => .list #[] frozen
  | .setEntry k index v, .dict entries frozen => .dict (entries.insert k (index, v)) frozen
  | _, c => c

theorem Edit.kind_apply (e : Edit) (c : Cell) : (e.apply c).kind = c.kind := by
  cases e <;> cases c <;> rfl

namespace Cell

/-- The frame after a variable has been assigned. -/
def assign (x : String) (v : Value) : Cell → Cell
  | .frame f => .frame { f with vars := f.vars.insert x v }
  | c => c

/-- The frame after a function has been made in its call. -/
def capture : Cell → Cell
  | .frame f => .frame { f with captured := true }
  | c => c

end Cell

/-- Changes the container at an address. -/
def edit (h : Heap) (a : Address) (e : Edit) : Heap := h.update a e.apply

theorem cell?_update (h : Heap) (a : Address) (f : Cell → Cell) (b : Address) :
    (h.update a f).cell? b = if a = b then (h.cell? b).map f else h.cell? b := by
  by_cases hab : a = b
  · subst hab
    cases hs : h.slots[a.index]? <;> simp [cell?, update, Array.getElem?_modify, hs]
  · have hi : a.index ≠ b.index := fun hi => hab (by cases a; cases b; simp_all)
    simp [cell?, update, Array.getElem?_modify, hab, hi]

end Scriptlet.Heap
