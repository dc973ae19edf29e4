import Scriptlet.Call.Args
import Scriptlet.Code.Tree
import Scriptlet.Heap.Cell

/-!
# Engines

Evaluation itself only says what is computed in which order. All that it needs from the machine it runs on is
listed here, and evaluation is written for any machine that offers it.
-/

namespace Scriptlet

open Call (Args)
open Code (Name)
open Fault (Cause)
open Program (Comparison Operator)

/-- What a machine with states `σ` offers to the evaluation of a piece of code. -/
structure Engine (σ : Type) where
  /-- Reads a variable. -/
  load : Name → EStateM Failure σ Value
  /-- Assigns to a variable. -/
  store : Name → Value → EStateM Failure σ Unit
  /-- Makes a list. -/
  list : List Value → EStateM Failure σ Value
  /-- Makes a tuple. -/
  tuple : List Value → EStateM Failure σ Value
  /-- The dictionary key of a value. -/
  key : Value → EStateM Failure σ Key
  /-- Makes a dictionary. -/
  dict : OrderedMap Key (Value × Value) → EStateM Failure σ Value
  /-- `container[index]` -/
  item : (container index : Value) → EStateM Failure σ Value
  /-- `container[index] = value` -/
  setItem : (container index value : Value) → EStateM Failure σ Unit
  /-- `object.attr` -/
  attr : (object : Value) → (attr : String) → EStateM Failure σ Value
  /-- `left op right` -/
  binary : Operator → (left right : Value) → EStateM Failure σ Value
  /-- `current op= operand` -/
  augment : Operator → (current operand : Value) → EStateM Failure σ Value
  /-- Whether a comparison holds. -/
  compare : Comparison → (left right : Value) → EStateM Failure σ Bool
  /-- `-v` -/
  negate : Value → EStateM Failure σ Value
  /-- Whether a value counts as true. -/
  truthy : Value → EStateM Failure σ Bool
  /-- The items that a loop runs over. -/
  items : Value → EStateM Failure σ (List Value)
  /-- The keyword arguments that a spread dictionary stands for. -/
  keywords : Value → EStateM Failure σ (List (String × Value))
  /-- Makes a function whose defaults have been evaluated. -/
  function : FunctionId → (defaults : List Value) → EStateM Failure σ Value
  /-- Calls a value. -/
  call : Value → Args → EStateM Failure σ Value
  /-- Notes that a statement is about to start. -/
  begin : Trace.StatementKind → EStateM Failure σ Unit

end Scriptlet
