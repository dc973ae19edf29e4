import Scriptlet.Heap.Basic

/-!
# Looking at values

The type of a value, its text if it is a string, its truth, its items and its dictionary key. Strings
behave the same whether they stand in the program or on the heap.
-/

namespace Scriptlet

open Budget (maxDataDepth)

/-- The type of a heap object. The variables of a call are never a value. -/
def Heap.Cell.type : Heap.Cell → ValueType
  | .text _ => .string
  | .list .. => .list
  | .tuple _ => .tuple
  | .dict .. => .dict
  | .struct _ => .struct
  | .closure _ => .function
  | .method _ => .builtin
  | .frame _ => .none

namespace Value

/-- The type of a value. -/
def type (h : Heap) : Value → Attempt ValueType
  | .none => .ok .none
  | .bool _ => .ok .bool
  | .int _ => .ok .int
  | .text _ => .ok .string
  | .native _ => .ok .builtin
  | .ref a => return (← h.read a).type

/-- The text of a string. -/
def text? (h : Heap) : Value → Attempt (Option String)
  | .text s => .ok (some s)
  | .ref a => do
    match ← h.read a with
    | .text s => return some s
    | _ => return Option.none
  | _ => .ok Option.none

/-- Whether a value counts as true: all do but none, false, zero and what is empty. -/
def truthy (h : Heap) : Value → Attempt Bool
  | .none => .ok false
  | .bool b => .ok b
  | .int n => .ok (n != 0)
  | .text s => .ok (!s.isEmpty)
  | .native _ => .ok true
  | .ref a => do
    match ← h.read a with
    | .text s => return !s.isEmpty
    | .list items _ => return !items.isEmpty
    | .tuple items => return !items.isEmpty
    | .dict entries _ => return entries.size != 0
    | _ => return true

/-- The items that a loop or a spread argument runs over; those of a dictionary are its keys. -/
def items (h : Heap) (v : Value) : Attempt (List Value) :=
  match v with
  | .ref a => do
    match ← h.read a with
    | .list items _ => return items.toList
    | .tuple items => return items.toList
    | .dict entries _ => return entries.values.map (·.1)
    | c => raise (.notIterable c.type)
  | v => do raise (.notIterable (← v.type h))

/-- The dictionary key of a value nested at most `n` deep. -/
def keyWithin (h : Heap) : Nat → Value → Attempt Key
  | 0, _ => raise (.nestedTooDeep .hash)
  | _ + 1, .none => .ok .none
  | _ + 1, .bool b => .ok (.bool b)
  | _ + 1, .int n => .ok (.int n)
  | _ + 1, .text s => .ok (.str s)
  | _ + 1, .native _ => raise (.unhashable .builtin)
  | n + 1, .ref a => do
    match ← h.read a with
    | .text s => return .str s
    | .tuple items => return .tuple (← items.toList.mapM (keyWithin h n))
    | c => raise (.unhashable c.type)

/-- The dictionary key of a value. Values that can change have none. -/
def key (h : Heap) (v : Value) : Attempt Key := keyWithin h (maxDataDepth + 1) v

end Value

end Scriptlet
