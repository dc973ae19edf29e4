import Scriptlet.Value.Inspect

/-!
# Order

Integers, booleans and strings are ordered among themselves, and so are lists and tuples, item by item.
-/

namespace Scriptlet.Value

open Budget (maxDataDepth)

/-- Compares lists item by item; a list comes after its beginnings. -/
def compareItems (cmp : Value → Value → Attempt Ordering) :
    List Value → List Value → Attempt Ordering
  | [], [] => .ok .eq
  | [], _ :: _ => .ok .lt
  | _ :: _, [] => .ok .gt
  | v :: vs, w :: ws => do
    match ← cmp v w with
    | .eq => compareItems cmp vs ws
    | o => return o

/-- Order of strings, lists and tuples, where `cmp` compares items. -/
def compareContents (h : Heap) (cmp : Value → Value → Attempt Ordering) (v w : Value) :
    Attempt Ordering := do
  match ← v.text? h, ← w.text? h with
  | some s, some t => return Ord.compare s t
  | _, _ =>
    match v, w with
    | .ref a, .ref b =>
      match ← h.read a, ← h.read b with
      | .list vs _, .list ws _ => compareItems cmp vs.toList ws.toList
      | .tuple vs, .tuple ws => compareItems cmp vs.toList ws.toList
      | c, d => raise (.notComparable c.type d.type)
    | v, w => do raise (.notComparable (← v.type h) (← w.type h))

/-- Order of contents, down to nesting `n`. -/
def compareWithin (h : Heap) : Nat → Value → Value → Attempt Ordering
  | 0, _, _ => raise (.nestedTooDeep .comparison)
  | _ + 1, .int m, .int n => .ok (Ord.compare m.toInt n.toInt)
  | _ + 1, .bool a, .bool b => .ok (Ord.compare a b)
  | n + 1, v, w => compareContents h (compareWithin h n) v w

/-- Order in the language. -/
def compare (h : Heap) (v w : Value) : Attempt Ordering := compareWithin h (maxDataDepth + 1) v w

end Scriptlet.Value
