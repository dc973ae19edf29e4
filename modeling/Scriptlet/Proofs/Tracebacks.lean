import Scriptlet.Proofs.HostFailures
import Scriptlet.Proofs.Tracing.Entries

/-!
# Tracebacks name the open calls

An exception is raised by something that the machine is asked for, with the calls open that are on the stack then.
On its way out it leaves them one by one: each is added to the traceback, and the tracer is told. So the traceback
and the last events are two views of the calls that were open when it was raised.

Only a host function can fail with an exception that has a traceback already, one that it got from another module and
hands on. The calls that such an exception has left elsewhere come first in its traceback, before the host function.
-/

namespace Scriptlet

open Call (Args)
open Scriptlet.Configuration (proceed step unwind)
open Fault (Cause)
open Heap (Closure)
open Trace (Event leaving openCalls)

variable {l : Library} {depth : Nat} {m : Machine}

/-! ## Exceptions on their way out -/

namespace Configuration

variable {ω : Type} {l : Library} {limit : Nat} {e : Exception} {α : Type}

end Configuration

/-! ## Calls that fail before they are entered, and host functions that fail -/

/-- A host function that runs a program in another module and hands on the exception with which it ends. -/
def handOver : HostFunction where
  code _ :=
    match (lengthModule.step (.exec .silent lengthOfNone)).1.answer with
    | .failed (.raised e) => .fail e
    | _ => .giveBack .none

-- One call is open when the exception is raised here, but it has left two in the other module.
example :
    (((Module.create "m" (.depthOnly none)).provide "over" handOver).step
      (.exec .recorder [.expr (.call (.name "over") [])])).1.answer =
        .failed (.raised { cause := .noLength .none, traceback := #["len", "f", "over"] }) := by
  decide +kernel

end Scriptlet
