import Scriptlet.Heap.Edit
import Scriptlet.Value.Inspect

/-!
# Items

Reading and assigning `container[index]`. Positions of lists and tuples count from zero, or from the end if
they are negative; dictionaries are indexed by key.
-/

namespace Scriptlet.Value

/-- The position that an index means in a sequence of some length. -/
def position? (index : Integer) (length : Nat) : Option (Fin length) :=
  let i := if index.toInt < 0 then index.toInt + length else index.toInt
  if hi : 0 ≤ i ∧ i < length then some ⟨i.toNat, by omega⟩ else Option.none

/-- The integer that an index must be. -/
def asIndex (h : Heap) : Value → Attempt Integer
  | .int n => .ok n
  | v => do raise (.indexNotInteger (← v.type h))

/-- The item of a sequence at an index. -/
def itemAt (type : ValueType) (items : Array Value) (index : Integer) : Attempt Value :=
  match position? index items.size with
  | some i => .ok items[i]
  | Option.none => raise (.indexOutOfRange type index items.size)

/-- `container[index]` -/
def item (h : Heap) (container index : Value) : Attempt Value := do
  match container with
  | .ref a =>
    match ← h.read a with
    | .list items _ => itemAt .list items (← index.asIndex h)
    | .tuple items => itemAt .tuple items (← index.asIndex h)
    | .dict entries _ =>
      let k ← index.key h
      match entries.find? k with
      | some e => return e.2
      | Option.none => raise (.keyNotFound k)
    | c => raise (.notSubscriptable c.type)
  | _ => raise (.notSubscriptable (← container.type h))

/-- The change of a container that `container[index] = value` stands for. -/
def itemEdit (h : Heap) (c : Heap.Cell) (index value : Value) : Attempt Heap.Edit := do
  match c with
  | .list items frozen =>
    let i ← index.asIndex h
    match position? i items.size with
    | Option.none => raise (.indexOutOfRange .list i items.size)
    | some p =>
      if frozen then raise (.frozenContainer .list)
      return .setItem p value
  | .dict _ frozen =>
    let k ← index.key h
    if frozen then raise (.frozenContainer .dict)
    return .setEntry k index value
  | c => raise (.noItemAssignment c.type)

/-- `container[index] = value`. A refused assignment changes nothing. -/
def setItem (container index value : Value) : HeapM Unit := do
  match container with
  | .ref a =>
    let e ← Heap.inspect fun h => do itemEdit h (← h.read a) index value
    modify fun h => h.edit a e
  | _ => raise (.noItemAssignment (← Heap.inspect container.type))

end Scriptlet.Value
