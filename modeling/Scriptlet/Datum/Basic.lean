import Scriptlet.Data.Integer

/-!
# Data in tagged form

Programs, host objects and limits reach the evaluator as plain data: null, booleans, numbers, text, lists
and records. A variant of a sum type is written with its tag: as the text of the tag if it carries nothing,
as a record with the tag as its only field otherwise.
-/

namespace Scriptlet

/-- Plain data. -/
inductive Datum where
  | null
  | bool (b : Bool)
  | int (n : Int)
  /-- A number that is not written as an integer: `digits` times ten to the minus `places`. -/
  | decimal (digits : Int) (places : Nat)
  | text (s : String)
  | list (items : List Datum)
  | record (fields : List (String × Datum))
  deriving Inhabited

namespace Datum

/-! ## Writing -/

/-- A variant with a payload. -/
def tagged (tag : String) (payload : Datum) : Datum := .record [(tag, payload)]

/-- A number that is not negative. -/
def nat (n : Nat) : Datum := .int n

/-- Null for an absent part. -/
def ofOption {α : Type} (f : α → Datum) : Option α → Datum
  | none => .null
  | some a => f a

/-! ## Nesting depth -/

mutual

/-- The nesting depth of a datum: one more than that of its deepest part. -/
def depth : Datum → Nat
  | .list items => depthList items + 1
  | .record fields => depthFields fields + 1
  | _ => 1

/-- The greatest depth of some items. -/
def depthList : List Datum → Nat
  | [] => 0
  | d :: ds => max d.depth (depthList ds)

/-- The greatest depth of some fields. -/
def depthFields : List (String × Datum) → Nat
  | [] => 0
  | (_, d) :: fs => max d.depth (depthFields fs)

end

end Datum

end Scriptlet
