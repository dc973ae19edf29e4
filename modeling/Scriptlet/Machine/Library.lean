import Scriptlet.Code.Function
import Scriptlet.Data.OrderedMap
import Scriptlet.Fault.Failure
import Scriptlet.Native.Host

/-!
# The library of a module

The functions that the programs of a module have defined and the host functions it was given. A library
never changes while a program runs, and it only ever grows.
-/

namespace Scriptlet

/-- A host function under the name it was registered with. -/
structure NativeEntry where
  name : String
  native : HostFunction
  deriving Inhabited

/-- What a module can call. -/
structure Library where
  functions : Array Code.Function := #[]
  natives : Array NativeEntry := #[]
  /-- The host functions with a global name, which an assignment can hide. -/
  builtins : OrderedMap String NativeId := .empty
  /-- The host functions that are attributes of all values of a type. -/
  methods : ValueType → OrderedMap String NativeId := fun _ => .empty
  deriving Inhabited

namespace Library

/-- A definition by its place in the table. -/
def function (l : Library) (id : FunctionId) : Attempt Code.Function :=
  match l.functions[id.index]? with
  | some f => .ok f
  | none => .error (.broken .functions id.index)

/-- A host function by its place in the table. -/
def native (l : Library) (id : NativeId) : Attempt NativeEntry :=
  match l.natives[id.index]? with
  | some e => .ok e
  | none => .error (.broken .natives id.index)

/-- Adds an entry for a host function. -/
def addNative (l : Library) (e : NativeEntry) : NativeId × Library :=
  (⟨l.natives.size⟩, { l with natives := l.natives.push e })

/-- Gives a host function a global name. -/
def addBuiltin (l : Library) (name : String) (native : HostFunction) : Library :=
  let (id, l) := l.addNative { name, native }
  { l with builtins := l.builtins.insert name id }

/-- Makes a host function an attribute of the values of a type. -/
def addMethod (l : Library) (type : ValueType) (attr : String) (native : HostFunction) : Library :=
  let (id, l) := l.addNative { name := attr, native }
  { l with methods := fun t => if t = type then (l.methods t).insert attr id else l.methods t }

/-- The host function behind an attribute. -/
def method? (l : Library) (type : ValueType) (attr : String) : Option NativeId :=
  (l.methods type).find? attr

/-- The attributes of the values of a type, in the order in which they were added. -/
def methodNames (l : Library) (type : ValueType) : List String :=
  (l.methods type).keys

end Library

end Scriptlet
