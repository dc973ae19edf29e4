import Scriptlet.Datum.Decode
import Scriptlet.Object.Basic

/-!
# Objects as data

The tagged form of objects. Most variants have a second tag that is accepted when reading.
-/

namespace Scriptlet.Object

mutual

def toDatum : Object → Datum
  | .none => .text "None"
  | .bool b => .tagged "Bool" (.bool b)
  | .int n => .tagged "Int" (.int n.toInt)
  | .string s => .tagged "String" (.text s)
  | .list items => .tagged "List" (.list (itemsToData items))
  | .tuple items => .tagged "Tuple" (.list (itemsToData items))
  | .dict pairs => .tagged "Dict" (.list (pairsToData pairs))
  | .struct fields => .tagged "Struct" (.list (fieldsToData fields))
  | .described text => .tagged "Repr" (.text text)
  | .cycle text => .tagged "Cycle" (.text text)

def itemsToData : List Object → List Datum
  | [] => []
  | o :: os => o.toDatum :: itemsToData os

def pairsToData : List (Object × Object) → List Datum
  | [] => []
  | (k, v) :: ps => .list [k.toDatum, v.toDatum] :: pairsToData ps

def fieldsToData : List (String × Object) → List Datum
  | [] => []
  | (x, v) :: fs => .list [.text x, v.toDatum] :: fieldsToData fs

end

/-- Reads an object nested at most `n` deep. -/
def read : Nat → Datum → Option Object
  | 0, _ => Option.none
  | n + 1, d =>
    let list := Datum.list? (read n)
    let pairs := Datum.list? (Datum.pair? (read n) (read n))
    let fields := Datum.list? (Datum.pair? Datum.text? (read n))
    d.oneOf? [
      ("None", .unit .none), ("none", .unit .none), ("NoneType", .unit .none),
      ("Bool", .one .bool Datum.bool?), ("bool", .one .bool Datum.bool?),
      ("Int", .one .int Datum.integer?), ("int", .one .int Datum.integer?),
      ("String", .one .string Datum.text?), ("str", .one .string Datum.text?),
      ("List", .one .list list), ("list", .one .list list),
      ("Tuple", .one .tuple list), ("tuple", .one .tuple list),
      ("Dict", .one .dict pairs), ("dict", .one .dict pairs),
      ("Struct", .one .struct fields), ("struct", .one .struct fields),
      ("Repr", .one .described Datum.text?),
      ("Cycle", .one .cycle Datum.text?)]

/-- Reads an object. -/
def ofDatum? (d : Datum) : Option Object := read d.depth d

end Scriptlet.Object
