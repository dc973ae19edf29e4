import Scriptlet.Fault.Malformed
import Scriptlet.Program.Tree

/-!
# Signatures

The parameters of a function, sorted into four groups: positional ones, a collector of further positional
arguments, keyword-only ones, and a collector of further keyword arguments. Defaults belong to a tail of the
positional parameters and to any of the keyword-only ones; their values are kept by each function value, the
positional ones first.
-/

namespace Scriptlet.Code

open Fault (Malformed)
open Program (Param)

/-- A parameter list sorted into its groups; a flag says whether a parameter has a default. -/
structure ParamGroups where
  positional : List (String × Bool) := []
  /-- The collector of further positional arguments. -/
  rest : Option String := none
  keywordOnly : List (String × Bool) := []
  /-- The collector of further keyword arguments. -/
  keywords : Option String := none
  deriving DecidableEq, Inhabited

/-- What is known after some parameters of a list have been looked at. -/
structure ParamScan where
  groups : ParamGroups := {}
  /-- The names seen so far. -/
  seen : List String := []
  /-- Whether a star was seen: all further parameters are keyword-only. -/
  star : Bool := false
  deriving DecidableEq, Inhabited

namespace ParamScan

/-- Adds a parameter that takes one argument. -/
def plain (function : String) (s : ParamScan) (x : String) (defaulted : Bool) : Except Malformed ParamScan :=
  if s.star then
    .ok { s with groups := { s.groups with keywordOnly := s.groups.keywordOnly ++ [(x, defaulted)] } }
  else if !defaulted && s.groups.positional.any (·.2) then
    .error (.requiredAfterDefaulted function x)
  else
    .ok { s with groups := { s.groups with positional := s.groups.positional ++ [(x, defaulted)] } }

/-- Sorts a parameter into its group, if its place and its name allow it. -/
def place (function : String) (s : ParamScan) : Param → Except Malformed ParamScan
  | .required x => s.plain function x false
  | .defaulted x _ => s.plain function x true
  | .rest x =>
    if s.star then .error (.secondStar function)
    else .ok { s with star := true, groups := { s.groups with rest := some x } }
  | .bareStar =>
    if s.star then .error (.secondStar function) else .ok { s with star := true }
  | .keywords x => .ok { s with groups := { s.groups with keywords := some x } }

/-- Looks at one more parameter. -/
def step (function : String) (s : ParamScan) (p : Param) : Except Malformed ParamScan :=
  match s.groups.keywords with
  | some keywords => .error (.afterKeywords function keywords)
  | none =>
    match p.name? with
    | none => s.place function p
    | some x =>
      if x ∈ s.seen then .error (.duplicateParam function x)
      else { s with seen := s.seen ++ [x] }.place function p

end ParamScan

/-- Sorts the parameters of a function, or says what is wrong with the list. -/
def ParamGroups.ofParams (function : String) (params : List Param) :
    Except Malformed ParamGroups := do
  let s ← params.foldlM (ParamScan.step function) {}
  if s.star && s.groups.rest.isNone && s.groups.keywordOnly.isEmpty then
    throw (.nothingAfterStar function)
  return s.groups

/-- The parameters of a function and the places of their defaults. -/
structure Signature where
  positional : List String := []
  /-- How many of the last positional parameters have defaults. -/
  defaulted : Nat := 0
  rest : Option String := none
  /-- Each keyword-only parameter with the place of its default among the keyword-only defaults. -/
  keywordOnly : List (String × Option Nat) := []
  keywords : Option String := none
  deriving DecidableEq, Inhabited

namespace Signature

/-- Numbers the flagged names from `n` on. -/
def numberDefaults (n : Nat) : List (String × Bool) → List (String × Option Nat)
  | [] => []
  | (x, true) :: ps => (x, some n) :: numberDefaults (n + 1) ps
  | (x, false) :: ps => (x, none) :: numberDefaults n ps

def ofGroups (g : ParamGroups) : Signature where
  positional := g.positional.map (·.1)
  defaulted := (g.positional.filter (·.2)).length
  rest := g.rest
  keywordOnly := numberDefaults 0 g.keywordOnly
  keywords := g.keywords

/-- The number of positional parameters without a default. -/
def requiredCount (s : Signature) : Nat := s.positional.length - s.defaulted

/-- The number of default values that go with the signature. -/
def defaultsCount (s : Signature) : Nat :=
  s.defaulted + (s.keywordOnly.filter (·.2.isSome)).length

/-- Whether there are only positional parameters. -/
def onlyPositional (s : Signature) : Bool :=
  s.rest.isNone && s.keywordOnly.isEmpty && s.keywords.isNone

end Signature

end Scriptlet.Code
