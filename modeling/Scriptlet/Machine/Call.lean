import Scriptlet.Call.Bind
import Scriptlet.Machine.Activation
import Scriptlet.Native.Run

/-!
# Calls

A call of a function gets a frame of its own, chained to the frame in which the function was made. The
number of calls that may still be opened is what calls recur on: each body runs with one fewer.
-/

namespace Scriptlet

open Call (Args)
open Heap (Closure)

/-- What can be called. -/
inductive Callee where
  | function (c : Closure)
  | native (id : NativeId) (receiver : Option Value)

/-- What a value stands for in a call. -/
def Value.callee (h : Heap) (v : Value) : Attempt Callee := do
  match v with
  | .native id => return .native id Option.none
  | .ref a =>
    match ← h.read a with
    | .closure c => return .function c
    | .method m => return .native m.native (some m.receiver)
    | c => raise (.notCallable c.type)
  | _ => raise (.notCallable (← v.type h))

namespace Run

/-- Runs the body of a call of `name` and cleans up after it, whether or not it fails. A failure records that
it left the call. -/
def guarded {σ : Type} (name : String) (body : EStateM Failure σ Value)
    (cleanUp : EStateM Failure σ Unit) : EStateM Failure σ Value := fun s =>
  match body s with
  | .ok v s => (do cleanUp; return v : EStateM Failure σ Value) s
  | .error e s => (do cleanUp; throw (e.leaving name) : EStateM Failure σ Value) s

/-- Runs the body of a call, which is entered before and left and cleaned up after. The depth counts this
call. -/
def entered (name : String) (depth : Nat) (body : Run Value) (cleanUp : Run Unit) : Run Value := do
  observe (.enter name depth)
  guarded name body do
    observe (.leave name (depth - 1))
    cleanUp

/-- Runs the body of a call in a frame of its own, which is released after it. -/
def inFrame (name : String) (depth : Nat) (frame : Heap.Frame) (body : Address → Run Value) :
    Run Value := do
  let a ← Heap.allocate (.frame frame)
  entered name depth (body a) (Heap.releaseFrame a)

/-- Calls a function; `call` is how its body makes calls. -/
def callFunction (l : Library) (depth : Nat) (call : Value → Args → Run Value) (c : Closure)
    (args : Args) : Run Value := do
  let f ← inspect fun _ => l.function c.function
  let bindings ← f.signature.bind f.name c.defaults args
  inFrame f.name depth { vars := .ofList bindings, parent := c.frame } fun a =>
    Activation.engine { library := l, depth, frame := some a, call } |>.execBody f.body

/-- Calls a host function. -/
def callNative (l : Library) (depth : Nat) (id : NativeId) (receiver : Option Value) (args : Args) :
    Run Value := do
  let e ← inspect fun _ => l.native id
  entered e.name depth (e.native.run l { name := e.name, receiver, args }) (return)

/-- Calls a value when `limit - budget` calls are open and `budget` more may be opened. -/
def callWithin (l : Library) (limit : Nat) : (budget : Nat) → Value → Args → Run Value
  | 0, v, _ => do
    discard (inspect v.callee)
    raise (.exhausted (.depth limit (limit + 1)))
  | budget + 1, v, args => do
    match ← inspect v.callee with
    | .function c => callFunction l (limit - budget) (callWithin l limit budget) c args
    | .native id receiver => callNative l (limit - budget) id receiver args

/-- Calls a value when no call is open. -/
def call (l : Library) (v : Value) (args : Args) : Run Value := fun m =>
  let limit := m.store.heap.meter.depthLimit
  callWithin l limit limit v args m

/-- The activation of module-level code. -/
def topLevel (l : Library) (limit : Nat) : Activation :=
  { library := l, depth := 0, frame := none, call := callWithin l limit limit }

/-- Evaluates an expression at module level. -/
def evalTop (l : Library) (e : Code.Expr) : Run Value := fun m =>
  (topLevel l m.store.heap.meter.depthLimit).engine.eval e m

end Run

end Scriptlet
