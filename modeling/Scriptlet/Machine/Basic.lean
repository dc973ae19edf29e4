import Scriptlet.Call.Args
import Scriptlet.Machine.Library
import Scriptlet.Machine.Store
import Scriptlet.Trace.Tracer

/-!
# The machine

The state that a run changes: the store, the globals of the module and the tracer. The library does not
belong to it.
-/

namespace Scriptlet

open Trace (Tracer)

/-- The global variables of a module. -/
structure Globals where
  /-- The variables, in the order in which they were first assigned. -/
  vars : OrderedMap String Value := .empty
  /-- Whether assignments are refused. -/
  frozen : Bool := false
  deriving Inhabited

namespace Globals

/-- The heap objects that the globals refer to. -/
def roots (g : Globals) : List Address := g.vars.values.filterMap Value.address?

/-- The value of a global name: a variable hides a host function. -/
def lookup (g : Globals) (l : Library) (x : String) : Attempt Value :=
  match g.vars.find? x with
  | some v => .ok v
  | none =>
    match l.builtins.find? x with
    | some id => .ok (.native id)
    | none => raise (.variableNotFound x)

/-- Gives a variable a value. -/
def assign (g : Globals) (x : String) (v : Value) : Globals :=
  { g with vars := g.vars.insert x v }

end Globals

/-- The state of a run. -/
structure Machine where
  store : Store
  globals : Globals
  tracer : Tracer
  deriving Inhabited

/-- A computation of the machine. A failure keeps what was done before it. -/
abbrev Run := EStateM Failure Machine

namespace Run

/-- Runs a computation on the store. -/
@[inline]
def onStore {α : Type} (x : StoreM α) : Run α := fun ⟨store, globals, tracer⟩ =>
  match x store with
  | .ok a store => .ok a ⟨store, globals, tracer⟩
  | .error e store => .error e ⟨store, globals, tracer⟩

instance : MonadLift StoreM Run := ⟨onStore⟩

/-- Looks at the heap. -/
@[inline]
def inspect {α : Type} (f : Heap → Attempt α) : Run α := onStore (Store.inspect f)

/-- Puts an object on the heap. -/
@[inline]
def allocate (c : Heap.Cell) : Run Value := onStore (Store.allocate c)

/-- Tells the tracer of an event. -/
def observe (e : Trace.Event) : Run Unit := fun ⟨store, globals, tracer⟩ =>
  .ok () ⟨store, globals, tracer.observe e⟩

/-- Counts a statement that is about to start. -/
def tick : HeapM Unit := fun ⟨slots, free, meter, sinceCollection⟩ =>
  match meter.tick with
  | (some use, meter) => .error (.ofCause (.exhausted use)) ⟨slots, free, meter, sinceCollection⟩
  | (none, meter) => .ok () ⟨slots, free, meter, sinceCollection⟩

/-- Reads a global name. -/
def loadGlobal (l : Library) (x : String) : Run Value := fun m =>
  match m.globals.lookup l x with
  | .ok v => .ok v m
  | .error e => .error e.failure m

/-- Assigns to a global variable, unless the globals are frozen. -/
def storeGlobal (x : String) (v : Value) : Run Unit := fun ⟨store, globals, tracer⟩ =>
  if globals.frozen then .error (.ofCause (.frozenModule x)) ⟨store, globals, tracer⟩
  else .ok () ⟨store, globals.assign x v, tracer⟩

end Run

/-- Where a piece of code runs. -/
structure Activation where
  library : Library
  /-- The calls that are open. -/
  depth : Nat
  /-- The variables of the innermost call, if any is open. -/
  frame : Option Address
  /-- How a call from here is made. -/
  call : Value → Call.Args → Run Value

end Scriptlet
