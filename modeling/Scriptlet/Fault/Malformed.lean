/-!
# Programs that are refused

The ways in which a program tree can break the rules of the language before it runs.
-/

namespace Scriptlet.Fault

/-- Why a program is refused. -/
inductive Malformed where
  /-- An augmented assignment to a tuple of targets. -/
  | tupleAugment
  | breakOutsideLoop
  | continueOutsideLoop
  | returnOutsideFunction
  /-- A positional argument after a keyword argument in a call. -/
  | positionalAfterKeyword
  /-- A parameter after the one that collects keywords. -/
  | afterKeywords (function keywords : String)
  | duplicateParam (function param : String)
  /-- A parameter without a default after one with a default. -/
  | requiredAfterDefaulted (function param : String)
  | secondStar (function : String)
  /-- A bare star with no parameter after it. -/
  | nothingAfterStar (function : String)
  | tooDeeplyNested
  deriving DecidableEq, Inhabited

def Malformed.message : Malformed → String
  | .tupleAugment => "illegal expression for augmented assignment"
  | .breakOutsideLoop => "'break' outside loop"
  | .continueOutsideLoop => "'continue' outside loop"
  | .returnOutsideFunction => "'return' outside function"
  | .positionalAfterKeyword => "positional argument follows keyword argument"
  | .afterKeywords function keywords => s!"{function}(): parameters cannot follow **{keywords}"
  | .duplicateParam function param =>
    s!"duplicate argument '{param}' in function definition {function}()"
  | .requiredAfterDefaulted function param =>
    s!"{function}(): non-default argument '{param}' follows default argument"
  | .secondStar function => s!"{function}(): multiple * parameters"
  | .nothingAfterStar function => s!"{function}(): named arguments must follow bare *"
  | .tooDeeplyNested => "too many nested function definitions"

end Scriptlet.Fault
