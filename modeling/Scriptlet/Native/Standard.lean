import Scriptlet.Native.Basic
import Scriptlet.Native.Host
import Scriptlet.Object.Text

/-!
# The standard host functions

What each of the standard host functions does, as a program over the operations of a call.
-/

namespace Scriptlet

open Fault (Kind)
open HostCode

namespace CallShape

/-- The handle of the receiver, if there is one. -/
def receiver? (c : CallShape) : Option Handle := if c.receiver then some .receiver else none

/-- The handle of a positional argument, if it was given. -/
def positional? (c : CallShape) (i : Nat) : Option Handle :=
  if i < c.positional then some (.positional i) else none

/-- The handle of the argument for a keyword, if it was given. -/
def keyword? (c : CallShape) (x : String) : Option Handle :=
  if c.keywords.contains x then some (.keyword x) else none

end CallShape

namespace Native

/-- Runs a program on the only argument of a function that takes one. -/
def sole (next : Handle → HostCode) : HostCode :=
  .requireArity 1 (orFail fun _ => next (.positional 0))

/-- Runs a program on the value that a function works on, where `more` further arguments are required: a
method works on its receiver and a plain function on its first argument. The program is also told where the
further arguments begin. -/
def subject (c : CallShape) (more : Nat) (next : Handle → Nat → HostCode) : HostCode :=
  match c.receiver? with
  | some v => .requireArity more (orFail fun _ => next v 0)
  | none => .requireArity (more + 1) (orFail fun _ => next (.positional 0) 1)

/-- The text of a value that may be missing. -/
def textOr (v : Option Handle) (next : Option String → HostCode) : HostCode :=
  match v with
  | some v => .textOf v next
  | none => next none

/-- The object of a value that may be missing. -/
def objectOr (v : Option Handle) (next : Object → HostCode) : HostCode :=
  match v with
  | some v => .objectOf v next
  | none => next .none

/-- A list that tells how a function was called: the name, the receiver, the positional arguments, the
keywords and the argument for the keyword `sep`. -/
def description (c : CallShape) (next : Object → HostCode) : HostCode :=
  objectOr c.receiver? fun receiver =>
    objectsOf (fun positional =>
      objectOr (c.keyword? "sep") fun separator =>
        next (.list [.string c.name, receiver, .list positional,
          .list (c.keywords.map Object.string), separator]))
      ((List.range c.positional).map Handle.positional)

/-- The integers from zero up to a bound. -/
def rangeObject (bound : Integer) : Object :=
  .list ((List.range bound.toInt.toNat).map fun i => .int (.ofNat i))

/-- The program of a standard host function. -/
def code (n : Native) (c : CallShape) : HostCode :=
  match n with
  | .length => sole fun v => .lengthOf v (orFail fun n => .giveBack (.int (.ofNat n)))
  | .isEmpty => sole fun v => .lengthOf v (orFail fun n => .giveBack (.bool (n == 0)))
  | .typeName => sole fun v => .typeOf v fun t => .newText t.name (orFail .giveBack)
  | .repr => sole fun v => .objectOf v fun o => .newText o.repr (orFail .giveBack)
  | .display => sole fun v => .objectOf v fun o => .newText o.display (orFail .giveBack)
  | .asInt => sole fun v => .intOf v fun
    | some n => .giveBack (.int n)
    | none => .giveBack .none
  | .upper => subject c 0 fun v _ => .textOf v fun
    | some s => .newText (s.map Char.toUpper) (orFail .giveBack)
    | none => .typeOf v fun t => .fail { cause := .expectedString c.name t }
  | .append => subject c 1 fun v i => .push v (.positional i) (orFail fun _ => .giveBack .none)
  | .clear => subject c 0 fun v _ => .clear v (orFail fun _ => .giveBack .none)
  | .struct => .newStruct (orFail .giveBack)
  | .range => sole fun v => .intOf v fun
    | some bound => .newValue (rangeObject bound) (orFail .giveBack)
    | none => .fail { cause := .expectedInt c.name }
  | .fail =>
    textOr (c.positional? 0) fun kind => textOr (c.positional? 1) fun message =>
      .fail { cause := .raised ((kind.bind Kind.ofName?).getD .typeError) (message.getD "") }
  | .echo => .giveBack (((c.positional? 0).or c.receiver?).getD .none)
  | .describe => description c fun o => .newValue o (orFail .giveBack)

/-- A standard host function. -/
def host (n : Native) : HostFunction := ⟨n.code⟩

instance : Coe Native HostFunction := ⟨host⟩

end Native

end Scriptlet
