import Scriptlet.Heap.Edit
import Scriptlet.Value.Arithmetic

/-!
# Augmented assignment

`+=` on a list extends it in place, so all who share the list see the new items. All other augmented
assignments make a new value.
-/

namespace Scriptlet.Value

open Program (Operator)

/-- The address of a list and whether it is frozen, if the value is one. -/
def list? (h : Heap) (v : Value) : Attempt (Option (Address × Bool)) := do
  match v with
  | .ref a =>
    match ← h.read a with
    | .list _ frozen => return some (a, frozen)
    | _ => return Option.none
  | _ => return Option.none

/-- The list that `v op= w` extends and the items that it gets, if it extends one. -/
def extension (h : Heap) (op : Operator) (v w : Value) : Attempt (Option (Address × List Value)) := do
  if op = .add then
    match ← v.list? h with
    | Option.none => return Option.none
    | some (a, frozen) =>
      let more ← w.items h
      if frozen then raise (.frozenContainer .list)
      return some (a, more)
  else return Option.none

/-- `v op= w` -/
def augment (op : Operator) (v w : Value) : HeapM Value := do
  match ← Heap.inspect fun h => extension h op v w with
  | Option.none => v.binary op w
  | some (a, more) =>
    modify fun h => h.edit a (.extend more)
    return v

end Scriptlet.Value
