import Scriptlet.Fault.Failure
import Scriptlet.Value.Basic

/-!
# Arguments

The arguments of a call after spreading: positional ones in order, and keywords in the order in which they
were given, repetitions included.
-/

namespace Scriptlet.Call

open Fault (Cause)

/-- The arguments of a call. -/
structure Args where
  positional : List Value := []
  keywords : List (String × Value) := []
  deriving DecidableEq, Inhabited

namespace Args

/-- Adds positional arguments in front. -/
def consPositional (vs : List Value) (a : Args) : Args :=
  { a with positional := vs ++ a.positional }

/-- Adds keyword arguments in front. -/
def consKeywords (kvs : List (String × Value)) (a : Args) : Args :=
  { a with keywords := kvs ++ a.keywords }

/-- The first argument that was given for a keyword. -/
def keyword? (a : Args) (x : String) : Option Value := a.keywords.lookup x

/-- What is wrong with the arguments of a function that takes `count` positional ones and nothing else. -/
def arityDefect? (a : Args) (callee : String) (count : Nat) : Option Cause :=
  match a.keywords with
  | (x, _) :: _ => some (.unexpectedKeyword callee x)
  | [] =>
    let given := a.positional.length
    if count < given then some (.tooManyArguments callee count given)
    else if given < count then some (.tooFewArguments callee count given)
    else none

end Args

end Scriptlet.Call
