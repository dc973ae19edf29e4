import Scriptlet.Code.Tree
import Scriptlet.Heap.Edit
import Scriptlet.Machine.Basic

/-!
# Variables

A name is looked up where resolution found it bound: in the frame of the running call, in a frame further
up the chain of definitions, or among the globals.
-/

namespace Scriptlet

open Code (Name)

namespace Heap

/-- The frame a number of definition levels above a frame. -/
def enclosing (h : Heap) : (levels : Nat) → Option Address → Attempt (Option Address)
  | 0, frame => .ok frame
  | _ + 1, none => .ok none
  | n + 1, some a => do
    match ← h.read a with
    | .frame f => h.enclosing n f.parent
    | _ => return none

/-- A variable of a frame, if it has been assigned. -/
def variableIn (h : Heap) (frame : Option Address) (x : String) : Attempt (Option Value) := do
  match frame with
  | none => return none
  | some a =>
    match ← h.read a with
    | .frame f => return f.vars.find? x
    | _ => return none

/-- Assigns to a variable of a frame, and says whether there is such a frame. -/
def assignVariable (frame : Option Address) (x : String) (v : Value) : HeapM Bool := do
  match frame with
  | none => return false
  | some a =>
    match ← inspect (·.read a) with
    | .frame _ =>
      modify fun h => h.update a (Cell.assign x v)
      return true
    | _ => return false

end Heap

namespace Activation

/-- Reads a variable of a frame that must have been assigned. -/
def loadFrom (frame : Option Address) (x : String) : Run Value := do
  match ← Run.inspect fun h => h.variableIn frame x with
  | some v => return v
  | none => raise (.unassignedLocal x)

/-- Reads a variable. -/
def load (act : Activation) (x : Name) : Run Value := do
  match x.scope with
  | .global => Run.loadGlobal act.library x.text
  | .own => loadFrom act.frame x.text
  | .outer levels =>
    Run.observe (.outerLoad x.text levels)
    loadFrom (← Run.inspect fun h => h.enclosing levels act.frame) x.text

/-- The frame that a name is assigned in; none for a global. -/
def frameOf (act : Activation) (h : Heap) (x : Name) : Attempt (Option Address) :=
  match x.scope with
  | .global => .ok none
  | .own => .ok act.frame
  | .outer levels => h.enclosing levels act.frame

/-- Assigns to a variable. -/
def store (act : Activation) (x : Name) (v : Value) : Run Unit := do
  let frame ← Run.inspect fun h => act.frameOf h x
  if ← Heap.assignVariable frame x.text v then return
  Run.storeGlobal x.text v

end Activation

end Scriptlet
