import Scriptlet.Machine.Stmt
import Scriptlet.Machine.Variable
import Scriptlet.Value.Augment
import Scriptlet.Value.Item
import Scriptlet.Value.Membership

/-!
# Activations as engines

What the machine offers to the code of an activation.
-/

namespace Scriptlet

open Call (Args)

namespace Value

/-- The entries of a dictionary that is spread into keyword arguments. -/
def spreadKeywords (h : Heap) (v : Value) : Attempt (List (Value × Value)) := do
  match v with
  | .ref a =>
    match ← h.read a with
    | .dict entries _ => return entries.values
    | c => raise (.notAMapping c.type)
  | _ => raise (.notAMapping (← v.type h))

/-- The name that a key of a spread dictionary must be. -/
def asKeyword (h : Heap) (v : Value) : Attempt String := do
  match ← v.text? h with
  | some x => return x
  | Option.none => raise (.keywordNotString (← v.type h))

/-- The struct field behind an attribute. -/
def field? (h : Heap) (v : Value) (attr : String) : Attempt (Option Value) := do
  match v with
  | .ref a =>
    match ← h.read a with
    | .struct fields => return fields.find? attr
    | _ => return Option.none
  | _ => return Option.none

end Value

namespace Store

/-- The keyword arguments for the entries of a spread dictionary. -/
def keywordsOf : List (Value × Value) → StoreM (List (String × Value))
  | [] => return []
  | (k, v) :: es => do
    let x ← inspect k.asKeyword
    learn x
    let kvs ← keywordsOf es
    return (x, v) :: kvs

/-- The keyword arguments that a spread dictionary stands for. -/
def spreadKeywords (v : Value) : StoreM (List (String × Value)) := do
  let entries ← inspect v.spreadKeywords
  keywordsOf entries

/-- `v.attr`: a field of a struct, or else a method of the value's type. -/
def readAttr (l : Library) (v : Value) (attr : String) : StoreM Value := do
  match ← inspect fun h => v.field? h attr with
  | some w => return w
  | none =>
    let type ← inspect v.type
    match l.method? type attr with
    | some native => allocate (.method { receiver := v, native })
    | none => raise (.noAttribute type attr)

end Store

namespace Heap

/-- Notes that a function is made in the call of a frame. -/
def captureFrame (frame : Option Address) : HeapM Unit := do
  match frame with
  | none => return
  | some a =>
    match ← inspect (·.read a) with
    | .frame _ => modify fun h => h.update a Cell.capture
    | _ => return

end Heap

namespace Activation

/-- Makes a function whose defaults have been evaluated. -/
def makeFunction (act : Activation) (id : FunctionId) (defaults : List Value) : Run Value := do
  let f ← Run.inspect fun _ => act.library.function id
  Run.observe (.makeFunction f.name f.signature.defaultsCount f.nested)
  if f.nested then
    Heap.captureFrame act.frame
  Run.allocate (.closure
    { function := id, defaults, frame := if f.nested then act.frame else none })

/-- Counts a statement that is about to start and tells the tracer of it. -/
def begin (act : Activation) (kind : Trace.StatementKind) : Run Unit := do
  Run.tick
  Run.observe (.statement kind act.depth)

/-- What the machine offers to the code of an activation. -/
def engine (act : Activation) : Engine Machine where
  load := act.load
  store := act.store
  list items := Run.allocate (.list items.toArray false)
  tuple items := Run.allocate (.tuple items.toArray)
  key v := Run.inspect v.key
  dict entries := Run.allocate (.dict entries false)
  item container index := Run.inspect fun h => container.item h index
  setItem container index value := container.setItem index value
  attr object attr := Store.readAttr act.library object attr
  binary op left right := left.binary op right
  augment op current operand := current.augment op operand
  compare op left right := Run.inspect fun h => left.holds h op right
  negate v := Run.inspect v.negate
  truthy v := Run.inspect v.truthy
  items v := Run.inspect v.items
  keywords v := Store.spreadKeywords v
  function := act.makeFunction
  call := act.call
  begin := act.begin

end Activation

end Scriptlet
