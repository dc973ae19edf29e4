import Scriptlet.Data.OrderedMap
import Scriptlet.Machine.Store
import Scriptlet.Object.Basic
import Scriptlet.Value.Inspect

/-!
# Objects as values

A host object becomes a value by building all its containers and strings on the heap, parts before wholes.
Objects nested too deeply are refused, and so are those that only ever come out.
-/

namespace Scriptlet.Object

open Budget (maxDataDepth)
open Heap (Cell)

/-- The value of an object nested in fewer than `n` containers. -/
def buildWithin : Nat → Object → StoreM Value
  | 0, _ => raise .objectTooDeep
  | _ + 1, .none => return .none
  | _ + 1, .bool b => return .bool b
  | _ + 1, .int n => return .int n
  | _ + 1, .string s => Store.allocate (.text s)
  | n + 1, .list items => do
    let items ← items.mapM (buildWithin n)
    Store.allocate (.list items.toArray false)
  | n + 1, .tuple items => do
    let items ← items.mapM (buildWithin n)
    Store.allocate (.tuple items.toArray)
  | n + 1, .dict pairs => do
    let entries ← pairs.foldlM (fun (entries : OrderedMap Key (Value × Value)) (k, v) => do
      let k ← buildWithin n k
      let v ← buildWithin n v
      let key ← Store.inspect k.key
      return entries.insert key (k, v)) .empty
    Store.allocate (.dict entries false)
  | n + 1, .struct fields => do
    let fields ← fields.foldlM (fun (fields : OrderedMap String Value) (x, v) => do
      let v ← buildWithin n v
      Store.learn x
      return fields.insert x v) .empty
    Store.allocate (.struct fields)
  | _ + 1, .described text => raise (.outputOnly (described text).typeName)
  | _ + 1, .cycle text => raise (.outputOnly (cycle text).typeName)

/-- The value of an object. -/
def build (o : Object) : StoreM Value := buildWithin (maxDataDepth + 1) o

end Scriptlet.Object
