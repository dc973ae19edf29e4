/-!
# Kinds of exception

Each exception has a kind with a name and a stable short code: `CM` for the module environment, `CF` for
calls, `CV` for operations on values, `CS` for programs that are refused and `CR` for the host boundary.
-/

namespace Scriptlet.Fault

/-- The kind of an exception. -/
inductive Kind where
  | tooManyArguments
  | multipleValuesForArgument
  | unexpectedKeywordArgument
  | missingArguments
  | recursionTooDeep
  | notCallable
  | variableNotFound
  | localVariableReferencedBeforeAssignment
  | frozenEnvironment
  | frozenValue
  | typeError
  | indexError
  | keyError
  | attributeError
  | zeroDivisionError
  | overflowError
  | syntaxError
  | resourceExhausted
  | invalidInput
  deriving DecidableEq, Inhabited

namespace Kind

def all : List Kind :=
  [.tooManyArguments, .multipleValuesForArgument, .unexpectedKeywordArgument, .missingArguments,
    .recursionTooDeep, .notCallable, .variableNotFound, .localVariableReferencedBeforeAssignment,
    .frozenEnvironment, .frozenValue, .typeError, .indexError, .keyError, .attributeError,
    .zeroDivisionError, .overflowError, .syntaxError, .resourceExhausted, .invalidInput]

def name : Kind → String
  | .tooManyArguments => "TooManyArguments"
  | .multipleValuesForArgument => "MultipleValuesForArgument"
  | .unexpectedKeywordArgument => "UnexpectedKeywordArgument"
  | .missingArguments => "MissingArguments"
  | .recursionTooDeep => "RecursionTooDeep"
  | .notCallable => "NotCallable"
  | .variableNotFound => "VariableNotFound"
  | .localVariableReferencedBeforeAssignment => "LocalVariableReferencedBeforeAssignment"
  | .frozenEnvironment => "FrozenEnvironment"
  | .frozenValue => "FrozenValue"
  | .typeError => "TypeError"
  | .indexError => "IndexError"
  | .keyError => "KeyError"
  | .attributeError => "AttributeError"
  | .zeroDivisionError => "ZeroDivisionError"
  | .overflowError => "OverflowError"
  | .syntaxError => "SyntaxError"
  | .resourceExhausted => "ResourceExhausted"
  | .invalidInput => "InvalidInput"

def code : Kind → String
  | .frozenEnvironment => "CM00"
  | .variableNotFound => "CM01"
  | .localVariableReferencedBeforeAssignment => "CM03"
  | .tooManyArguments => "CF00"
  | .multipleValuesForArgument => "CF01"
  | .unexpectedKeywordArgument => "CF02"
  | .missingArguments => "CF03"
  | .recursionTooDeep => "CF04"
  | .notCallable => "CF05"
  | .frozenValue => "CV00"
  | .typeError => "CV01"
  | .indexError => "CV02"
  | .keyError => "CV03"
  | .attributeError => "CV04"
  | .zeroDivisionError => "CV05"
  | .overflowError => "CV06"
  | .syntaxError => "CS00"
  | .resourceExhausted => "CR00"
  | .invalidInput => "CR01"

def ofName? (s : String) : Option Kind := all.find? fun k => k.name = s

theorem mem_all (k : Kind) : k ∈ all := by
  cases k <;> decide

theorem ofName?_name (k : Kind) : ofName? k.name = some k := by
  cases k <;> decide

end Kind

end Scriptlet.Fault
