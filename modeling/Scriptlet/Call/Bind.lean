import Scriptlet.Call.Args
import Scriptlet.Code.Signature
import Scriptlet.Heap.Basic

/-!
# Binding arguments to parameters

Positional arguments fill the positional parameters from left to right, and what is left over goes to the
collector. Keywords fill the parameters they name, and others go to the other collector. Then parameters
that are still open take their defaults, and all that have none are reported at once. The collectors are
made last, so that a call whose arguments do not fit has allocated nothing.

A function with positional parameters only that is called without keywords is bound directly.
-/

namespace Scriptlet

open Call (Args)

namespace Call

/-- Which parameters have an argument. -/
structure Filling where
  /-- One slot for each named parameter, the positional ones first. -/
  slots : List (Option Value)
  /-- The keywords for the collector, in the order of the call. -/
  collected : OrderedMap String Value := .empty
  deriving DecidableEq, Inhabited

/-- The first slots with the positional arguments, all others open. -/
def Filling.start (slots : Nat) (positional : List Value) : Filling where
  slots := positional.map some ++ List.replicate (slots - positional.length) none

/-- A default value by its place. -/
def defaultAt (defaults : List Value) (i : Nat) : Attempt Value :=
  match defaults[i]? with
  | some v => .ok v
  | none => .error (.broken .defaults i)

end Call

namespace Code.Signature

open Call (Filling defaultAt)

/-- The parameters that take one argument each, with the places of their defaults. -/
def named (s : Signature) : List (String × Option Nat) :=
  let required := s.requiredCount
  (s.positional.mapIdx fun i x => (x, if required ≤ i then some (i - required) else none)) ++
  s.keywordOnly.map fun p => (p.1, p.2.map (s.defaulted + ·))

/-- Takes one keyword argument. -/
def takeKeyword (s : Signature) (callee : String) (f : Filling) (kv : String × Value) : Attempt Filling :=
  match s.named.findIdx? (·.1 = kv.1) with
  | some i =>
    match f.slots[i]? with
    | some none => .ok { f with slots := f.slots.set i (some kv.2) }
    | some (some _) => raise (.duplicateArgument callee kv.1)
    | none => .error (.broken .slots i)
  | none =>
    if s.keywords.isNone then raise (.unexpectedKeyword callee kv.1)
    else if f.collected.contains kv.1 then raise (.duplicateArgument callee kv.1)
    else .ok { f with collected := f.collected.insert kv.1 kv.2 }

/-- Fills the parameters with the arguments of a call. -/
def fill (s : Signature) (callee : String) (args : Args) : Attempt Filling :=
  let limit := s.positional.length
  if s.rest.isNone && limit < args.positional.length then
    raise (.tooManyArguments callee limit args.positional.length)
  else
    args.keywords.foldlM (s.takeKeyword callee)
      (.start s.named.length (args.positional.take limit))

/-- The parameters without an argument and without a default. -/
def missing (s : Signature) (slots : List (Option Value)) : List String :=
  (s.named.zip slots).filterMap fun
    | ((x, none), none) => some x
    | _ => none

/-- The values of the named parameters. -/
def complete (s : Signature) (defaults : List Value) (slots : List (Option Value)) : Attempt (List (String × Value)) :=
  (s.named.zip slots).filterMapM fun
    | ((x, _), some v) => return some (x, v)
    | ((x, some i), none) => return some (x, ← defaultAt defaults i)
    | ((_, none), none) => return none

/-- The named parameters with their values and the keywords for the collector. -/
def settle (s : Signature) (callee : String) (defaults : List Value) (args : Args) :
    Attempt (List (String × Value) × List (String × Value)) := do
  let f ← s.fill callee args
  let named ← s.complete defaults f.slots
  match s.missing f.slots with
  | [] => return (named, f.collected.entries)
  | names => raise (.missingArguments callee names)

/-- Makes the tuple of the positional arguments that are left over. -/
def collectRest (s : Signature) (args : Args) : HeapM (List (String × Value)) :=
  match s.rest with
  | none => return []
  | some x => do
    let a ← Heap.allocate (.tuple (args.positional.drop s.positional.length).toArray)
    return [(x, .ref a)]

/-- Makes the dictionary of the collected keywords. -/
def collectKeywords (s : Signature) (collected : List (String × Value)) : HeapM (List (String × Value)) :=
  match s.keywords with
  | none => return []
  | some x => do
    let entries := collected.map fun kv => (Key.str kv.1, (Value.text kv.1, kv.2))
    let a ← Heap.allocate (.dict (.ofList entries) false)
    return [(x, .ref a)]

/-- Binds any arguments: the positional parameters, their collector, the keyword-only parameters and
their collector, in this order. -/
def bindFully (s : Signature) (callee : String) (defaults : List Value) (args : Args) :
    HeapM (List (String × Value)) := do
  let (named, collected) ← Heap.inspect fun _ => s.settle callee defaults args
  let (positional, keywordOnly) := named.splitAt s.positional.length
  let rest ← s.collectRest args
  let keywords ← s.collectKeywords collected
  return positional ++ rest ++ keywordOnly ++ keywords

/-- Binds positional arguments if there are only positional parameters. -/
def bindPositional (s : Signature) (callee : String) (defaults given : List Value) : Attempt (List (String × Value)) :=
  let limit := s.positional.length
  let required := s.requiredCount
  if limit < given.length then
    raise (.tooManyArguments callee limit given.length)
  else if given.length < required then
    raise (.missingArguments callee ((s.positional.take required).drop given.length))
  else if defaults.length < s.defaulted then
    .error (.broken .defaults defaults.length)
  else
    let taken := (defaults.take s.defaulted).drop (given.length - required)
    .ok (s.positional.zip (given ++ taken))

/-- Binds the arguments of a call to the parameters. -/
def bind (s : Signature) (callee : String) (defaults : List Value) (args : Args) : HeapM (List (String × Value)) :=
  if s.onlyPositional && args.keywords.isEmpty then
    Heap.inspect fun _ => s.bindPositional callee defaults args.positional
  else
    s.bindFully callee defaults args

end Code.Signature

end Scriptlet
