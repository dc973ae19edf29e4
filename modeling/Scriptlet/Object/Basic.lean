import Scriptlet.Data.Integer

/-!
# Host objects

The data that a host passes in and gets out. Objects own all their parts and need no heap. Two variants only
ever come out: the description of a value that has no owned form, and the mark of a container that contains
itself.
-/

namespace Scriptlet

/-- A host object. -/
inductive Object where
  | none
  | bool (b : Bool)
  | int (n : Integer)
  | string (s : String)
  | list (items : List Object)
  | tuple (items : List Object)
  /-- Pairs of a key and a value, in order. -/
  | dict (pairs : List (Object × Object))
  /-- Named fields, in order. -/
  | struct (fields : List (String × Object))
  /-- A value without an owned form, such as a function. -/
  | described (text : String)
  /-- A container met again inside itself. -/
  | cycle (text : String)
  deriving Inhabited

namespace Object

/-- The name of an object's type. -/
def typeName : Object → String
  | .none => "NoneType"
  | .bool _ => "bool"
  | .int _ => "int"
  | .string _ => "string"
  | .list _ => "list"
  | .tuple _ => "tuple"
  | .dict _ => "dict"
  | .struct _ => "struct"
  | .described _ => "repr"
  | .cycle _ => "cycle"

/-! ## Equality -/

mutual

/-- Whether two objects are the same, order of entries and fields included. -/
def same : Object → Object → Bool
  | .none, .none => true
  | .bool a, .bool b => a == b
  | .int a, .int b => a == b
  | .string a, .string b => a == b
  | .list as, .list bs => sameItems as bs
  | .tuple as, .tuple bs => sameItems as bs
  | .dict as, .dict bs => samePairs as bs
  | .struct as, .struct bs => sameFields as bs
  | .described a, .described b => a == b
  | .cycle a, .cycle b => a == b
  | _, _ => false

def sameItems : List Object → List Object → Bool
  | [], [] => true
  | a :: as, b :: bs => same a b && sameItems as bs
  | _, _ => false

def samePairs : List (Object × Object) → List (Object × Object) → Bool
  | [], [] => true
  | (k, a) :: as, (l, b) :: bs => same k l && same a b && samePairs as bs
  | _, _ => false

def sameFields : List (String × Object) → List (String × Object) → Bool
  | [], [] => true
  | (x, a) :: as, (y, b) :: bs => x == y && same a b && sameFields as bs
  | _, _ => false

end

mutual

theorem same_iff : (a b : Object) → (same a b = true ↔ a = b)
  | .none, b => by cases b <;> simp [same]
  | .bool _, b => by cases b <;> simp [same]
  | .int _, b => by cases b <;> simp [same]
  | .string _, b => by cases b <;> simp [same]
  | .list as, b => by
    cases b with
    | list bs => simp [same, sameItems_iff as bs]
    | _ => simp [same]
  | .tuple as, b => by
    cases b with
    | tuple bs => simp [same, sameItems_iff as bs]
    | _ => simp [same]
  | .dict as, b => by
    cases b with
    | dict bs => simp [same, samePairs_iff as bs]
    | _ => simp [same]
  | .struct as, b => by
    cases b with
    | struct bs => simp [same, sameFields_iff as bs]
    | _ => simp [same]
  | .described _, b => by cases b <;> simp [same]
  | .cycle _, b => by cases b <;> simp [same]

theorem sameItems_iff : (as bs : List Object) → (sameItems as bs = true ↔ as = bs)
  | [], bs => by cases bs <;> simp [sameItems]
  | a :: as, bs => by
    cases bs with
    | nil => simp [sameItems]
    | cons b bs => simp [sameItems, same_iff a b, sameItems_iff as bs]

theorem samePairs_iff : (as bs : List (Object × Object)) → (samePairs as bs = true ↔ as = bs)
  | [], bs => by cases bs <;> simp [samePairs]
  | (k, a) :: as, bs => by
    cases bs with
    | nil => simp [samePairs]
    | cons e bs =>
      obtain ⟨l, b⟩ := e
      simp [samePairs, same_iff k l, same_iff a b, samePairs_iff as bs]

theorem sameFields_iff : (as bs : List (String × Object)) → (sameFields as bs = true ↔ as = bs)
  | [], bs => by cases bs <;> simp [sameFields]
  | (x, a) :: as, bs => by
    cases bs with
    | nil => simp [sameFields]
    | cons e bs =>
      obtain ⟨y, b⟩ := e
      simp [sameFields, same_iff a b, sameFields_iff as bs]

end

instance : DecidableEq Object := fun a b => decidable_of_iff _ (same_iff a b)

end Object

end Scriptlet
