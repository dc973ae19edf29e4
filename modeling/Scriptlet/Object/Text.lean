import Scriptlet.Object.Basic
import Scriptlet.Text.Quoted

/-!
# Objects as text

The representation of an object is written as in a program; its display form differs only in that a string
stands for itself.
-/

namespace Scriptlet.Object

mutual

/-- The representation of an object. -/
def repr : Object → String
  | .none => "None"
  | .bool true => "True"
  | .bool false => "False"
  | .int n => n.text
  | .string s => Text.quote s
  | .list items => "[" ++ String.intercalate ", " (reprs items) ++ "]"
  | .tuple items =>
    "(" ++ String.intercalate ", " (reprs items) ++ (if items.length = 1 then ",)" else ")")
  | .dict pairs => "\x7b" ++ String.intercalate ", " (pairReprs pairs) ++ "\x7d"
  | .struct fields => "struct(" ++ String.intercalate ", " (fieldReprs fields) ++ ")"
  | .described text => text
  | .cycle text => text

def reprs : List Object → List String
  | [] => []
  | o :: os => o.repr :: reprs os

def pairReprs : List (Object × Object) → List String
  | [] => []
  | (k, v) :: ps => (k.repr ++ ": " ++ v.repr) :: pairReprs ps

def fieldReprs : List (String × Object) → List String
  | [] => []
  | (x, v) :: fs => (x ++ " = " ++ v.repr) :: fieldReprs fs

end

/-- The display form of an object. -/
def display : Object → String
  | .string s => s
  | o => o.repr

end Scriptlet.Object
