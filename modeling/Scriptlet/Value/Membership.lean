import Scriptlet.Program.Operator
import Scriptlet.Value.Equality
import Scriptlet.Value.Ordering

/-!
# Membership and comparisons

A string contains its substrings, a list or tuple the values equal to one of its items, and a dictionary its
keys.
-/

namespace Scriptlet.Value

open Program (Comparison)

/-- Whether a value equals one of some candidates. -/
def anyEqual (h : Heap) (v : Value) : List Value → Attempt Bool
  | [] => .ok false
  | w :: ws => do
    if ← w.equal h v then return true else anyEqual h v ws

/-- Whether a container holds a value. -/
def contains (h : Heap) (container v : Value) : Attempt Bool := do
  match ← container.text? h with
  | some hay =>
    match ← v.text? h with
    | some needle => return hay.contains needle
    | Option.none => raise (.membershipNotString (← v.type h))
  | Option.none =>
    match container with
    | .ref a =>
      match ← h.read a with
      | .list items _ => anyEqual h v items.toList
      | .tuple items => anyEqual h v items.toList
      | .dict entries _ => return entries.contains (← v.key h)
      | c => raise (.notAContainer c.type)
    | _ => raise (.notAContainer (← container.type h))

/-- Whether a comparison holds. -/
def holds (h : Heap) (op : Comparison) (v w : Value) : Attempt Bool := do
  match op with
  | .eq => v.equal h w
  | .ne => return !(← v.equal h w)
  | .lt => return (← v.compare h w).isLT
  | .le => return (← v.compare h w).isLE
  | .gt => return (← v.compare h w).isGT
  | .ge => return (← v.compare h w).isGE
  | .mem => w.contains h v
  | .notMem => return !(← w.contains h v)

end Scriptlet.Value
