import Scriptlet.Data.Integer

/-!
# Values

None, booleans, integers, literal strings and host functions are values by themselves. All else lives on
the heap and a value only refers to it, so passing a value on never copies what it refers to. Two values
are the same object exactly when they are equal as data; equality in the language looks at contents and
needs the heap.
-/

namespace Scriptlet

/-- The place of an object on the heap. -/
structure Address where
  index : Nat
  deriving DecidableEq, Inhabited

/-- The place of a definition in the table of functions. -/
structure FunctionId where
  index : Nat
  deriving DecidableEq, Inhabited

/-- The place of a host function in the table of natives. -/
structure NativeId where
  index : Nat
  deriving DecidableEq, Inhabited

/-- A value. -/
inductive Value where
  | none
  | bool (b : Bool)
  | int (n : Integer)
  /-- A string that stands in the program or in a name. -/
  | text (s : String)
  /-- An object on the heap. -/
  | ref (a : Address)
  /-- A host function. -/
  | native (id : NativeId)
  deriving DecidableEq, Inhabited

/-- The heap object that a value refers to. -/
def Value.address? : Value → Option Address
  | .ref a => some a
  | _ => Option.none

end Scriptlet
