import Scriptlet.Fault.Failure
import Scriptlet.Object.Basic

/-!
# Host code

A host function is a program of the host that runs inside a call. It never sees the heap: it names values by
handles, which mean nothing outside the call, and works on them through a fixed set of operations. So it can
depend on nothing but what those operations show, and it can give back only values that it was called with or
has got from an operation.
-/

namespace Scriptlet

open Fault (Cause)

/-- A value as a host function names it: one that needs no heap, one that it was called with, or one that an
earlier operation of the same call gave it. A handle of what is not there stands for none. -/
inductive Handle where
  | none
  | bool (b : Bool)
  | int (n : Integer)
  /-- The value that a method was looked up on. -/
  | receiver
  | positional (i : Nat)
  /-- The first argument for a keyword. -/
  | keyword (x : String)
  /-- The value that the operation gave which was the `i`th to give one. -/
  | obtained (i : Nat)
  deriving DecidableEq, Inhabited

/-- What a host function is told about a call before it looks at any value. -/
structure CallShape where
  /-- The name under which the function was registered. -/
  name : String
  /-- Whether it was called as a method. -/
  receiver : Bool
  /-- The number of positional arguments. -/
  positional : Nat
  /-- The keywords, in the order of the call. -/
  keywords : List String
  deriving DecidableEq, Inhabited

/-- A host program. An operation that can raise an exception shows it to the program, which may go on. -/
inductive HostCode where
  | giveBack (v : Handle)
  /-- Fails with an exception. One that the host has got from elsewhere, as from a run of another module, may have left
  calls there. -/
  | fail (e : Exception)
  /-- Requires exactly `count` positional arguments and no keywords. -/
  | requireArity (count : Nat) (next : Except Cause Unit → HostCode)
  | typeOf (v : Handle) (next : ValueType → HostCode)
  /-- The text of a string. -/
  | textOf (v : Handle) (next : Option String → HostCode)
  /-- An integer by itself. -/
  | intOf (v : Handle) (next : Option Integer → HostCode)
  | objectOf (v : Handle) (next : Object → HostCode)
  /-- The number of characters of a string or of items of a container. -/
  | lengthOf (v : Handle) (next : Except Cause Nat → HostCode)
  | newValue (o : Object) (next : Except Cause Handle → HostCode)
  | newText (s : String) (next : Except Cause Handle → HostCode)
  /-- A struct with the keyword arguments as fields. -/
  | newStruct (next : Except Cause Handle → HostCode)
  /-- Adds an item to the end of a list. -/
  | push (list item : Handle) (next : Except Cause Unit → HostCode)
  /-- Removes all items of a list. -/
  | clear (list : Handle) (next : Except Cause Unit → HostCode)
  deriving Inhabited

/-- A host function: the program to run in a call of a given shape. -/
structure HostFunction where
  code : CallShape → HostCode
  deriving Inhabited

namespace HostCode

/-- Goes on with a result and passes an exception on. -/
def orFail {α : Type} (next : α → HostCode) : Except Cause α → HostCode
  | .ok a => next a
  | .error cause => .fail { cause }

/-- Looks at several values as objects. -/
def objectsOf (next : List Object → HostCode) : List Handle → HostCode
  | [] => next []
  | v :: vs => .objectOf v fun o => objectsOf (fun os => next (o :: os)) vs

end HostCode

end Scriptlet
