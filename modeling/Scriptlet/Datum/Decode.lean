import Scriptlet.Datum.Basic

/-!
# Reading data

Partial readers for the shapes of tagged data. A sum type is read by a table from tags to readers of the
payload, so that two variants are told apart by their tags alone. Fields that a record reader does not ask
for are ignored.
-/

namespace Scriptlet.Datum

/-! ## Plain shapes -/

def bool? : Datum → Option Bool
  | .bool b => some b
  | _ => none

def text? : Datum → Option String
  | .text s => some s
  | _ => none

def int? : Datum → Option Int
  | .int n => some n
  | _ => none

/-- An integer of the language. -/
def integer? (d : Datum) : Option Integer := do
  Integer.ofInt? (← d.int?)

/-- An unsigned integer below a bound. -/
def natBelow? (bound : Nat) (d : Datum) : Option Nat := do
  let n ← d.int?
  if 0 ≤ n ∧ n < bound then some n.toNat else none

/-- One more than the greatest counter or limit, which are unsigned 64-bit integers. -/
def countBound : Nat := 18446744073709551616

/-- A counter or limit. -/
def count? (d : Datum) : Option Nat := d.natBelow? countBound

def items? : Datum → Option (List Datum)
  | .list items => some items
  | _ => none

def fields? : Datum → Option (List (String × Datum))
  | .record fields => some fields
  | _ => none

/-- Null or what a reader accepts. -/
def optional? {α : Type} (read : Datum → Option α) : Datum → Option (Option α)
  | .null => some none
  | d => (read d).map some

/-- A list whose items are all accepted. -/
def list? {α : Type} (read : Datum → Option α) (d : Datum) : Option (List α) := do
  (← d.items?).mapM read

/-- A list of exactly two items. -/
def pair? {α β : Type} (first : Datum → Option α) (second : Datum → Option β) :
    Datum → Option (α × β)
  | .list [a, b] => do return (← first a, ← second b)
  | _ => none

/-- The value of a field. -/
def field? (name : String) (fields : List (String × Datum)) : Option Datum :=
  fields.lookup name

/-- A required field. -/
def required? {α : Type} (fields : List (String × Datum)) (name : String)
    (read : Datum → Option α) : Option α := do
  read (← field? name fields)

/-! ## Variants -/

/-- The tag of a variant and what it carries, if anything. -/
def variant? : Datum → Option (String × Option Datum)
  | .text tag => some (tag, none)
  | .record [(tag, payload)] => some (tag, some payload)
  | _ => none

/-- A reader of what a tag carries. -/
abbrev Payload (α : Type) := Option Datum → Option α

namespace Payload

variable {α β γ : Type}

/-- Nothing, or an explicit null. -/
def unit (a : α) : Payload α
  | none => some a
  | some .null => some a
  | some _ => none

/-- One part. -/
def one (f : α → β) (read : Datum → Option α) : Payload β
  | none => none
  | some d => (read d).map f

/-- A list of exactly two parts. -/
def two (f : α → β → γ) (first : Datum → Option α) (second : Datum → Option β) : Payload γ
  | none => none
  | some d => (pair? first second d).map fun p => f p.1 p.2

/-- A record of named parts. -/
def named (read : List (String × Datum) → Option α) : Payload α
  | none => none
  | some d => d.fields?.bind read

end Payload

/-- A variant of a sum type, by a table of its tags. -/
def oneOf? {α : Type} (table : List (String × Payload α)) (d : Datum) : Option α := do
  let (tag, payload) ← d.variant?
  let read ← table.lookup tag
  read payload

end Scriptlet.Datum
