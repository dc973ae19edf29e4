import Scriptlet.Budget.Meter
import Scriptlet.Fault.Kind
import Scriptlet.Fault.Malformed
import Scriptlet.Program.Operator
import Scriptlet.Value.KeyOrder
import Scriptlet.Value.Type

/-!
# Causes of exceptions

What went wrong, as data. The kind of a cause, the names it is about and its wording are functions of the
cause.
-/

namespace Scriptlet.Fault

open Program (Operator)
open Budget (Exceeded)

/-- The walks over data that stop at a fixed nesting. -/
inductive Walk where
  | hash
  | comparison
  deriving DecidableEq, Inhabited

/-- Why an exception was raised. -/
inductive Cause where
  -- Binding arguments to parameters.
  | tooManyArguments (callee : String) (limit given : Nat)
  | duplicateArgument (callee param : String)
  | unexpectedKeyword (callee key : String)
  | missingArguments (callee : String) (params : List String)
  /-- A host function was given fewer arguments than it takes. -/
  | tooFewArguments (callee : String) (expected given : Nat)
  -- Calls and names.
  | notCallable (type : ValueType)
  | variableNotFound (x : String)
  | unassignedLocal (x : String)
  | frozenModule (x : String)
  | frozenContainer (type : ValueType)
  -- Operations on values.
  | unsupportedOperands (op : Operator) (left right : ValueType)
  | unsupportedNegation (type : ValueType)
  | overflow (op : Operator) (left right : Integer)
  | negationOverflow (n : Integer)
  | divisionByZero
  | notComparable (left right : ValueType)
  | notIterable (type : ValueType)
  | notAContainer (type : ValueType)
  | membershipNotString (type : ValueType)
  | notSubscriptable (type : ValueType)
  | noItemAssignment (type : ValueType)
  | indexNotInteger (type : ValueType)
  | indexOutOfRange (type : ValueType) (index : Integer) (length : Nat)
  | keyNotFound (key : Key)
  | unhashable (type : ValueType)
  | noAttribute (type : ValueType) (attr : String)
  | unpackMismatch (values targets : Nat)
  | notAMapping (type : ValueType)
  | keywordNotString (type : ValueType)
  | nestedTooDeep (walk : Walk)
  -- Host functions.
  | noLength (type : ValueType)
  | expectedList (callee : String) (type : ValueType)
  | expectedString (callee : String) (type : ValueType)
  | expectedInt (callee : String)
  /-- Raised on purpose, with a kind and a message of its own. -/
  | raised (kind : Kind) (message : String)
  -- The host boundary.
  | malformed (defect : Malformed)
  | exhausted (use : Exceeded)
  /-- An object that only ever comes out of the evaluator. -/
  | outputOnly (type : String)
  | objectTooDeep
  deriving DecidableEq, Inhabited

namespace Cause

/-- The kind of exception that a cause raises. -/
def kind : Cause → Kind
  | .tooManyArguments .. => .tooManyArguments
  | .duplicateArgument .. => .multipleValuesForArgument
  | .unexpectedKeyword .. => .unexpectedKeywordArgument
  | .missingArguments .. => .missingArguments
  | .tooFewArguments .. => .missingArguments
  | .notCallable _ => .notCallable
  | .variableNotFound _ => .variableNotFound
  | .unassignedLocal _ => .localVariableReferencedBeforeAssignment
  | .frozenModule _ => .frozenEnvironment
  | .frozenContainer _ => .frozenValue
  | .unsupportedOperands .. => .typeError
  | .unsupportedNegation _ => .typeError
  | .overflow .. => .overflowError
  | .negationOverflow _ => .overflowError
  | .divisionByZero => .zeroDivisionError
  | .notComparable .. => .typeError
  | .notIterable _ => .typeError
  | .notAContainer _ => .typeError
  | .membershipNotString _ => .typeError
  | .notSubscriptable _ => .typeError
  | .noItemAssignment _ => .typeError
  | .indexNotInteger _ => .typeError
  | .indexOutOfRange .. => .indexError
  | .keyNotFound _ => .keyError
  | .unhashable _ => .typeError
  | .noAttribute .. => .attributeError
  | .unpackMismatch .. => .typeError
  | .notAMapping _ => .typeError
  | .keywordNotString _ => .typeError
  | .nestedTooDeep _ => .recursionTooDeep
  | .noLength _ => .typeError
  | .expectedList .. => .typeError
  | .expectedString .. => .typeError
  | .expectedInt _ => .typeError
  | .raised kind _ => kind
  | .malformed _ => .syntaxError
  | .exhausted (.depth ..) => .recursionTooDeep
  | .exhausted _ => .resourceExhausted
  | .outputOnly _ => .invalidInput
  | .objectTooDeep => .invalidInput

/-- The parameter or variable names that a cause is about. -/
def arguments : Cause → List String
  | .duplicateArgument _ param => [param]
  | .unexpectedKeyword _ key => [key]
  | .missingArguments _ params => params
  | .variableNotFound x => [x]
  | .unassignedLocal x => [x]
  | .noAttribute _ attr => [attr]
  | _ => []

/-- A word with its plural ending unless there is exactly one. -/
def plural (n : Nat) (word : String) : String :=
  if n = 1 then word else word ++ "s"

/-- Quoted names in a row: `'a'`, `'a' and 'b'` or `'a', 'b', and 'c'`. -/
def enumerate (names : List String) : String :=
  match names.map fun x => s!"'{x}'" with
  | [] => ""
  | [a] => a
  | [a, b] => s!"{a} and {b}"
  | quoted => String.intercalate ", " quoted.dropLast ++ s!", and {quoted.getLastD default}"

/-- The wording of a cause. -/
def message : Cause → String
  | .tooManyArguments callee limit given =>
    let argument := plural limit "argument"
    let verb := if given = 1 then "was" else "were"
    s!"{callee}() takes {limit} positional {argument} but {given} {verb} given"
  | .duplicateArgument callee param => s!"{callee}() got multiple values for argument '{param}'"
  | .unexpectedKeyword callee key => s!"{callee}() got an unexpected keyword argument '{key}'"
  | .missingArguments callee params =>
    let count := params.length
    let argument := plural count "argument"
    let listed := enumerate params
    s!"{callee}() missing {count} required {argument}: {listed}"
  | .tooFewArguments callee expected given =>
    let argument := plural expected "argument"
    s!"{callee}() takes exactly {expected} {argument} ({given} given)"
  | .notCallable type => s!"'{type.name}' object is not callable"
  | .variableNotFound x => s!"Variable '{x}' not found"
  | .unassignedLocal x => s!"Local variable '{x}' referenced before assignment"
  | .frozenModule x => s!"Cannot assign '{x}': the module environment is frozen"
  | .frozenContainer type => s!"Cannot mutate a frozen {type.name}"
  | .unsupportedOperands op left right =>
    s!"unsupported operand type(s) for {op.symbol}: '{left.name}' and '{right.name}'"
  | .unsupportedNegation type => s!"bad operand type for unary -: '{type.name}'"
  | .overflow op left right => s!"integer overflow in {left.text} {op.symbol} {right.text}"
  | .negationOverflow n => s!"integer overflow in -({n.text})"
  | .divisionByZero => "integer division or modulo by zero"
  | .notComparable left right =>
    s!"comparison not supported between '{left.name}' and '{right.name}'"
  | .notIterable type => s!"'{type.name}' object is not iterable"
  | .notAContainer type => s!"argument of type '{type.name}' is not iterable"
  | .membershipNotString type =>
    s!"'in <string>' requires string as left operand, not {type.name}"
  | .notSubscriptable type => s!"'{type.name}' object is not subscriptable"
  | .noItemAssignment type => s!"'{type.name}' object does not support item assignment"
  | .indexNotInteger type => s!"indices must be integers, not {type.name}"
  | .indexOutOfRange type index length =>
    s!"{type.name} index {index.text} out of range [0:{length}]"
  | .keyNotFound key => s!"key {key.text} not found in dictionary"
  | .unhashable type => s!"unhashable type: '{type.name}'"
  | .noAttribute type attr => s!"'{type.name}' object has no attribute '{attr}'"
  | .unpackMismatch values targets => s!"cannot unpack {values} values into {targets} targets"
  | .notAMapping type => s!"argument after ** must be a dict, not '{type.name}'"
  | .keywordNotString type => s!"keywords must be strings, not '{type.name}'"
  | .nestedTooDeep .hash => "maximum recursion depth exceeded in hash"
  | .nestedTooDeep .comparison => "maximum recursion depth exceeded in comparison"
  | .noLength type => s!"object of type '{type.name}' has no len()"
  | .expectedList callee type => s!"{callee}() expected a list, got '{type.name}'"
  | .expectedString callee type => s!"{callee}() expects a string, got '{type.name}'"
  | .expectedInt callee => s!"{callee}() expects an int"
  | .raised _ message => message
  | .malformed defect => defect.message
  | .exhausted use => use.message
  | .outputOnly type => s!"{type} objects cannot be passed into the evaluator"
  | .objectTooDeep => "object nested too deeply"

end Cause

end Scriptlet.Fault
