import Scriptlet.Fault.Cause

/-!
# Exceptions and failures

An exception is a cause together with the calls it unwound through. A computation can fail in two ways: it
raises an exception, which is an answer of the language, or it asks an internal table for an entry that the
table does not hold. The second never happens to a module that is used through its operations; it is kept
apart so that this can be said. What has no effects opens no calls, so it fails without a traceback.
-/

namespace Scriptlet

open Fault (Cause Kind)

/-- An exception of the language. -/
structure Exception where
  cause : Cause
  /-- The functions whose calls the exception left, innermost first. -/
  traceback : Array String := #[]
  deriving DecidableEq, Inhabited

namespace Exception

def kind (e : Exception) : Kind := e.cause.kind

def message (e : Exception) : String := e.cause.message

def arguments (e : Exception) : List String := e.cause.arguments

/-- The exception after it has left a call of `name`. -/
def leaving (name : String) (e : Exception) : Exception :=
  { e with traceback := e.traceback.push name }

/-- The exception as text: a headline and a line for each call it left. -/
def display (e : Exception) : String :=
  let headline := s!"{e.kind.name} [{e.kind.code}]: {e.message}"
  headline ++ String.join (e.traceback.toList.map fun name => s!"\n  in {name}()")

end Exception

/-- The internal tables that are read by index. -/
inductive Table where
  | heap
  | functions
  | natives
  /-- The default values of a function value. -/
  | defaults
  /-- The parameters that arguments are bound to. -/
  | slots
  deriving DecidableEq, Inhabited

/-- Why a computation has no result. -/
inductive Failure where
  | raised (e : Exception)
  /-- The table holds no entry at this index. -/
  | broken (table : Table) (index : Nat)
  deriving DecidableEq, Inhabited

namespace Failure

/-- The failure of raising a cause, before it has left any call. -/
def ofCause (cause : Cause) : Failure := .raised { cause }

/-- The failure after it has left a call of `name`. -/
def leaving (name : String) : Failure → Failure
  | .raised e => .raised (e.leaving name)
  | .broken table index => .broken table index

end Failure

/-- Why a computation without effects has no result. -/
inductive Flaw where
  | raised (cause : Cause)
  /-- The table holds no entry at this index. -/
  | broken (table : Table) (index : Nat)
  deriving DecidableEq, Inhabited

/-- The failure of a computation that meets the flaw. -/
def Flaw.failure : Flaw → Failure
  | .raised cause => .ofCause cause
  | .broken table index => .broken table index

/-- A computation without effects that may fail. -/
abbrev Attempt := Except Flaw

/-- The errors that causes are raised as. -/
class Raisable (ε : Type) where
  ofCause : Cause → ε

instance : Raisable Failure := ⟨.ofCause⟩

instance : Raisable Flaw := ⟨.raised⟩

/-- Raises a cause. -/
def raise {ε : Type} {m : Type → Type} [MonadExcept ε m] [Raisable ε] {α : Type} (cause : Cause) : m α :=
  throw (Raisable.ofCause cause)

end Scriptlet
