import Scriptlet.Data.OrderedMap
import Scriptlet.Value.Basic
import Scriptlet.Value.KeyOrder

/-!
# Heap objects

What a slot of the heap can hold. Lists and dictionaries can change in place until they are frozen, and the
variables of a call change as it runs; all other objects never change.
-/

namespace Scriptlet.Heap

/-- The variables of one call. -/
structure Frame where
  vars : OrderedMap String Value
  /-- The variables of the call in which the running function was made. -/
  parent : Option Address
  /-- Whether a function was made in this call, which may outlive it. -/
  captured : Bool := false

/-- A function value. -/
structure Closure where
  function : FunctionId
  /-- The defaults, computed when the function was made and shared by all its calls. -/
  defaults : List Value
  /-- The variables of the call in which the function was made, if it was made in a call. -/
  frame : Option Address

/-- A host function bound to the value it was looked up on. -/
structure BoundMethod where
  receiver : Value
  native : NativeId

/-- An object on the heap. -/
inductive Cell where
  /-- A string that was computed or came from the host. -/
  | text (s : String)
  | list (items : Array Value) (frozen : Bool)
  | tuple (items : Array Value)
  /-- Each entry keeps the value it was stored under beside its key. -/
  | dict (entries : OrderedMap Key (Value × Value)) (frozen : Bool)
  | struct (fields : OrderedMap String Value)
  | closure (c : Closure)
  | method (m : BoundMethod)
  | frame (f : Frame)

instance : Inhabited Cell := ⟨.tuple #[]⟩

/-- The sorts of heap object. -/
inductive CellKind where
  | text
  | list
  | tuple
  | dict
  | struct
  | closure
  | method
  | frame
  deriving DecidableEq, Inhabited

namespace CellKind

def all : List CellKind := [.text, .list, .tuple, .dict, .struct, .closure, .method, .frame]

def name : CellKind → String
  | .text => "Str"
  | .list => "List"
  | .tuple => "Tuple"
  | .dict => "Dict"
  | .struct => "Struct"
  | .closure => "Closure"
  | .method => "BoundMethod"
  | .frame => "Frame"

theorem mem_all (k : CellKind) : k ∈ all := by
  cases k <;> decide

end CellKind

namespace Cell

def kind : Cell → CellKind
  | .text _ => .text
  | .list .. => .list
  | .tuple _ => .tuple
  | .dict .. => .dict
  | .struct _ => .struct
  | .closure _ => .closure
  | .method _ => .method
  | .frame _ => .frame

/-- The estimated size of an object without its contents, in bytes. -/
def baseSize : Nat := 96

/-- The size of a value inside an object, in bytes. -/
def valueSize : Nat := 16

/-- The estimated size of an object, in bytes. -/
def size : Cell → Nat
  | .text s => baseSize + s.utf8ByteSize
  | .list items _ => baseSize + items.size * valueSize
  | .tuple items => baseSize + items.size * valueSize
  | .dict entries _ => baseSize + entries.size * 3 * valueSize
  | .struct fields => baseSize + fields.size * 2 * valueSize
  | .closure c => baseSize + c.defaults.length * valueSize
  | .method _ => baseSize
  | .frame f => baseSize + f.vars.size * 2 * valueSize

/-- The values that an object holds. -/
def values : Cell → List Value
  | .text _ => []
  | .list items _ => items.toList
  | .tuple items => items.toList
  | .dict entries _ => entries.values.flatMap fun e => [e.1, e.2]
  | .struct fields => fields.values
  | .closure c => c.defaults
  | .method m => [m.receiver]
  | .frame f => f.vars.values

/-- The frame that an object holds on to. -/
def frame? : Cell → Option Address
  | .closure c => c.frame
  | .frame f => f.parent
  | _ => none

/-- The heap objects that an object refers to. -/
def children (c : Cell) : List Address :=
  c.frame?.toList ++ c.values.filterMap Value.address?

/-- The object made immutable, if it can be. -/
def freeze : Cell → Cell
  | .list items _ => .list items true
  | .dict entries _ => .dict entries true
  | c => c

theorem kind_freeze (c : Cell) : c.freeze.kind = c.kind := by
  cases c <;> rfl

end Cell

end Scriptlet.Heap
