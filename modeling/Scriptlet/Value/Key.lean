import Scriptlet.Data.Integer
import Scriptlet.Text.Quoted

/-!
# Dictionary keys

Only immutable values can be keys: none, booleans, integers, strings and tuples of these. A key is the
content of such a value, so two values with the same content are the same key wherever they are stored. A
boolean and an integer are never the same key.
-/

namespace Scriptlet

/-- The content of a value that can be a dictionary key. -/
inductive Key where
  | none
  | bool (b : Bool)
  | int (n : Integer)
  | str (s : String)
  | tuple (items : List Key)
  deriving Inhabited

namespace Key

mutual

/-- How a key is shown. -/
def text : Key → String
  | .none => "None"
  | .bool true => "True"
  | .bool false => "False"
  | .int n => n.text
  | .str s => Text.quote s
  | .tuple items =>
    "(" ++ String.intercalate ", " (texts items) ++ (if items.length = 1 then ",)" else ")")

/-- How each of some keys is shown. -/
def texts : List Key → List String
  | [] => []
  | k :: ks => text k :: texts ks

end

end Key

end Scriptlet
