import Scriptlet.Call.Args
import Scriptlet.Heap.Edit
import Scriptlet.Native.Host
import Scriptlet.Object.Build
import Scriptlet.Object.Unfold

/-!
# Running host code

What the operations of host code do to the store. They look at values, add objects and change lists, but they
never call back into the evaluator.
-/

namespace Scriptlet

open Call (Args)
open Fault (Cause)
open Heap (Edit)

/-- A call of a host function. -/
structure NativeCall where
  /-- The name under which the function was registered. -/
  name : String
  /-- The value it was looked up on, if it was called as a method. -/
  receiver : Option Value
  args : Args
  deriving DecidableEq, Inhabited

namespace Value

/-- The number of characters of a string or of items of a container. -/
def length (h : Heap) (v : Value) : Attempt Nat := do
  match ← v.text? h with
  | some s => return s.length
  | Option.none =>
    match v with
    | .ref a =>
      match ← h.read a with
      | .list items _ => return items.size
      | .tuple items => return items.size
      | .dict entries _ => return entries.size
      | c => raise (.noLength c.type)
    | _ => raise (.noLength (← v.type h))

/-- The integer that a value is by itself. -/
def int? : Value → Option Integer
  | .int n => some n
  | _ => Option.none

/-- The address of a list that can be changed. -/
def openList (h : Heap) (callee : String) (v : Value) : Attempt Address := do
  match v with
  | .ref a =>
    match ← h.read a with
    | .list _ frozen =>
      if frozen then raise (.frozenContainer .list)
      return a
    | c => raise (.expectedList callee c.type)
  | _ => raise (.expectedList callee (← v.type h))

/-- Changes a list in place. A refused change leaves the list as it was. -/
def editList (callee : String) (v : Value) (e : Edit) : HeapM Unit := do
  let a ← Heap.inspect fun h => v.openList h callee
  modify fun h => h.edit a e

end Value

namespace NativeCall

/-- What the host function is told about the call. -/
def shape (c : NativeCall) : CallShape where
  name := c.name
  receiver := c.receiver.isSome
  positional := c.args.positional.length
  keywords := c.args.keywords.map Prod.fst

/-- The value of a handle, where `obtained` are the values that operations gave so far. -/
def value (c : NativeCall) (obtained : List Value) : Handle → Value
  | .none => .none
  | .bool b => .bool b
  | .int n => .int n
  | .receiver => c.receiver.getD .none
  | .positional i => c.args.positional[i]?.getD .none
  | .keyword x => (c.args.keyword? x).getD .none
  | .obtained i => obtained[i]?.getD .none

/-- Requires exactly `count` positional arguments and no keywords. -/
def arity (c : NativeCall) (count : Nat) : Attempt Unit :=
  match c.args.arityDefect? c.name count with
  | some defect => raise defect
  | none => .ok ()

end NativeCall

namespace HostCode

/-- Shows an exception as a result instead of failing with it. -/
def attempt {σ α : Type} (x : EStateM Failure σ α) : EStateM Failure σ (Except Cause α) := fun s =>
  match x s with
  | .ok a s => .ok (.ok a) s
  | .error (.raised e) s => .ok (.error e.cause) s
  | .error e s => .error e s

/-- The handle of the value that an operation gave, and all values given so far. -/
def keep (obtained : List Value) : Except Cause Value → Except Cause Handle × List Value
  | .ok v => (.ok (.obtained obtained.length), obtained ++ [v])
  | .error cause => (.error cause, obtained)

/-- Runs a host program, where `obtained` are the values that operations gave so far. -/
def run (l : Library) (c : NativeCall) : HostCode → (obtained : List Value) → StoreM Value
  | .giveBack v, obtained => return c.value obtained v
  | .fail e, _ => throw (.raised e)
  | .requireArity count next, obtained => do
    let r ← attempt (Store.inspect fun _ => c.arity count)
    (next r).run l c obtained
  | .typeOf v next, obtained => do
    let type ← Store.inspect (c.value obtained v).type
    (next type).run l c obtained
  | .textOf v next, obtained => do
    let text ← Store.inspect (c.value obtained v).text?
    (next text).run l c obtained
  | .intOf v next, obtained => (next (c.value obtained v).int?).run l c obtained
  | .objectOf v next, obtained => do
    let o ← Store.inspect ((c.value obtained v).unfold l)
    (next o).run l c obtained
  | .lengthOf v next, obtained => do
    let r ← attempt (Store.inspect (c.value obtained v).length)
    (next r).run l c obtained
  | .newValue o next, obtained => do
    let r ← attempt o.build
    (next (keep obtained r).1).run l c (keep obtained r).2
  | .newText s next, obtained => do
    let r ← attempt (Store.allocate (.text s))
    (next (keep obtained r).1).run l c (keep obtained r).2
  | .newStruct next, obtained => do
    let r ← attempt (Store.allocate (.struct (.ofList c.args.keywords)))
    (next (keep obtained r).1).run l c (keep obtained r).2
  | .push list item next, obtained => do
    let r ← attempt
      (Store.onHeap ((c.value obtained list).editList c.name (.extend [c.value obtained item])))
    (next r).run l c obtained
  | .clear list next, obtained => do
    let r ← attempt (Store.onHeap ((c.value obtained list).editList c.name .clear))
    (next r).run l c obtained

end HostCode

/-- Runs a host function. -/
def HostFunction.run (l : Library) (f : HostFunction) (c : NativeCall) : StoreM Value :=
  (f.code c.shape).run l c []

end Scriptlet
