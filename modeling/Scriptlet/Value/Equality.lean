import Scriptlet.Value.Inspect

/-!
# Equality

Two values are equal if they are the same object or have the same content. Strings, lists, tuples,
dictionaries and structs have content; functions are equal only to themselves. Values of different types are
never equal. Data nested beyond a fixed depth is not compared.
-/

namespace Scriptlet.Value

open Budget (maxDataDepth)

/-- Whether two lists have the same length and the test holds item by item. -/
def allEqual (eq : Value → Value → Attempt Bool) : List Value → List Value → Attempt Bool
  | [], [] => .ok true
  | v :: vs, w :: ws => do
    if ← eq v w then allEqual eq vs ws else return false
  | _, _ => .ok false

/-- Whether each entry has a counterpart with the same key in the other map, and the test holds of the two
values. -/
def allMatch {κ : Type} (eq : Value → Value → Attempt Bool) (other : κ → Option Value) :
    List (κ × Value) → Attempt Bool
  | [] => .ok true
  | (k, v) :: es => do
    match other k with
    | Option.none => return false
    | some w => if ← eq v w then allMatch eq other es else return false

/-- Equality of contents, down to nesting `n`. -/
def equalWithin (h : Heap) : Nat → Value → Value → Attempt Bool
  | 0, _, _ => raise (.nestedTooDeep .comparison)
  | n + 1, v, w => do
    if v = w then return true
    match ← v.text? h, ← w.text? h with
    | some s, some t => return s == t
    | _, _ =>
      match v, w with
      | .ref a, .ref b =>
        match ← h.read a, ← h.read b with
        | .list vs _, .list ws _ =>
          if vs.size = ws.size then allEqual (equalWithin h n) vs.toList ws.toList else return false
        | .tuple vs, .tuple ws =>
          if vs.size = ws.size then allEqual (equalWithin h n) vs.toList ws.toList else return false
        | .dict vs _, .dict ws _ =>
          if vs.size = ws.size then
            allMatch (equalWithin h n) (fun k => (ws.find? k).map (·.2))
              (vs.entries.map fun e => (e.1, e.2.2))
          else return false
        | .struct vs, .struct ws =>
          if vs.size = ws.size then allMatch (equalWithin h n) ws.find? vs.entries else return false
        | _, _ => return false
      | _, _ => return false

/-- Equality in the language. -/
def equal (h : Heap) (v w : Value) : Attempt Bool := equalWithin h (maxDataDepth + 1) v w

end Scriptlet.Value
