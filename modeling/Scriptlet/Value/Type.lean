/-!
# Types of values

The types that the language tells apart, with their names in messages and their tags in data.
-/

namespace Scriptlet

/-- The type of a value. -/
inductive ValueType where
  | none
  | bool
  | int
  | string
  | list
  | tuple
  | dict
  | struct
  | function
  /-- A host function, or one that is bound to a receiver. -/
  | builtin
  deriving DecidableEq, Inhabited

namespace ValueType

def all : List ValueType :=
  [.none, .bool, .int, .string, .list, .tuple, .dict, .struct, .function, .builtin]

/-- The name of the type in the language. -/
def name : ValueType → String
  | .none => "NoneType"
  | .bool => "bool"
  | .int => "int"
  | .string => "string"
  | .list => "list"
  | .tuple => "tuple"
  | .dict => "dict"
  | .struct => "struct"
  | .function => "function"
  | .builtin => "builtin_function_or_method"

/-- The tag of the type in data. -/
def tag : ValueType → String
  | .none => "NoneType"
  | .bool => "Bool"
  | .int => "Int"
  | .string => "String"
  | .list => "List"
  | .tuple => "Tuple"
  | .dict => "Dict"
  | .struct => "Struct"
  | .function => "Function"
  | .builtin => "BuiltinFunction"

def ofName? (s : String) : Option ValueType := all.find? fun t => t.name = s

def ofTag? (s : String) : Option ValueType := all.find? fun t => t.tag = s

theorem ofName?_name (t : ValueType) : ofName? t.name = some t := by
  cases t <;> decide

theorem ofTag?_tag (t : ValueType) : ofTag? t.tag = some t := by
  cases t <;> decide

end ValueType

end Scriptlet
