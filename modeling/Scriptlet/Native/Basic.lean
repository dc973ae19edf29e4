/-!
# Host functions

The functions that a host can make available to programs, as global names or as attributes of the values of
a type.
-/

namespace Scriptlet

/-- A host function. -/
inductive Native where
  /-- The number of characters of a string or of items of a container. -/
  | length
  /-- Whether a string or a container is empty. -/
  | isEmpty
  /-- The name of a value's type. -/
  | typeName
  /-- A value as it would stand in a program. -/
  | repr
  /-- A value as text. -/
  | display
  /-- An integer itself, none for all else. -/
  | asInt
  /-- A string with its ASCII letters in upper case. -/
  | upper
  /-- Adds an item to the end of a list. -/
  | append
  /-- Removes all items of a list. -/
  | clear
  /-- A struct with the keyword arguments as fields. -/
  | struct
  /-- The list of the integers from zero up to a bound. -/
  | range
  /-- Raises an exception of a chosen kind. -/
  | fail
  /-- Gives its argument back. -/
  | echo
  /-- A list that tells how it was called. -/
  | describe
  deriving DecidableEq, Inhabited

namespace Native

def all : List Native :=
  [.length, .isEmpty, .typeName, .repr, .display, .asInt, .upper, .append, .clear, .struct, .range,
    .fail, .echo, .describe]

/-- The name by which a host asks for the function. -/
def name : Native → String
  | .length => "len"
  | .isEmpty => "is_empty"
  | .typeName => "type"
  | .repr => "repr"
  | .display => "str"
  | .asInt => "int_of"
  | .upper => "upper"
  | .append => "append"
  | .clear => "clear"
  | .struct => "struct"
  | .range => "range"
  | .fail => "fail"
  | .echo => "echo"
  | .describe => "describe"

def ofName? (s : String) : Option Native := all.find? fun n => n.name = s

theorem ofName?_name (n : Native) : ofName? n.name = some n := by
  cases n <;> decide

end Native

end Scriptlet
