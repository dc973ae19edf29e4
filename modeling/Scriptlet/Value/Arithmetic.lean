import Scriptlet.Value.Inspect

/-!
# Arithmetic

The binary operators. On integers the result is exact or refused: it is the mathematical one if that has a
word, and an overflow otherwise. Division and remainder round toward negative infinity. `+` also joins two
strings, two lists or two tuples into a new object.
-/

namespace Scriptlet

open Fault (Cause)
open Program (Operator)

namespace Integer

/-- An exact result, or the overflow of an operation. -/
def exact (op : Operator) (m n : Integer) (result : Int) : Except Cause Integer :=
  match ofInt? result with
  | some w => .ok w
  | none => .error (.overflow op m n)

/-- The quotient of two integers, rounded toward zero, if it has a word. -/
def quotient? (m n : Integer) : Option Integer := ofInt? (m.toInt.tdiv n.toInt)

/-- The remainder that belongs to this quotient. Words have none where the quotient is not a word. -/
def remainder? (m n : Integer) : Option Integer := (quotient? m n).map fun _ => m % n

/-- Whether rounding toward zero has gone up: something remains, and `side` and the divisor differ in sign. -/
def roundedUp (remainder side divisor : Integer) : Bool :=
  remainder != 0 && (decide (side < 0) != decide (divisor < 0))

/-- A binary operator on integers. Division takes its steps on words, which would wrap around if one of them
went out of range. -/
def apply (op : Operator) (m n : Integer) : Except Cause Integer :=
  match op with
  | .add => exact op m n (m.toInt + n.toInt)
  | .sub => exact op m n (m.toInt - n.toInt)
  | .mul => exact op m n (m.toInt * n.toInt)
  | .floorDiv =>
    if n = 0 then .error .divisionByZero
    else
      match quotient? m n with
      | some q => .ok (if roundedUp (m % n) m n then q - 1 else q)
      | none => .error (.overflow op m n)
  | .mod =>
    if n = 0 then .error .divisionByZero
    else
      -- Nothing remains where the quotient has no word.
      let r := (remainder? m n).getD 0
      .ok (if roundedUp r r n then r + n else r)

/-- The negation of an integer. -/
def negate (n : Integer) : Except Cause Integer :=
  match ofInt? (-n.toInt) with
  | some w => .ok w
  | none => .error (.negationOverflow n)

end Integer

namespace Value

/-- A result of integer arithmetic as a value. -/
def ofArithmetic : Except Cause Integer → Attempt Value
  | .ok n => .ok (.int n)
  | .error cause => raise cause

/-- `-v` -/
def negate (h : Heap) : Value → Attempt Value
  | .int n => ofArithmetic n.negate
  | v => do raise (.unsupportedNegation (← v.type h))

/-- The object that joins two values, if they can be joined. -/
def joined (h : Heap) (v w : Value) : Attempt (Option Heap.Cell) := do
  match ← v.text? h, ← w.text? h with
  | some s, some t => return some (.text (s ++ t))
  | _, _ =>
    match v, w with
    | .ref a, .ref b =>
      match ← h.read a, ← h.read b with
      | .list vs _, .list ws _ => return some (.list (vs ++ ws) false)
      | .tuple vs, .tuple ws => return some (.tuple (vs ++ ws))
      | _, _ => return Option.none
    | _, _ => return Option.none

/-- The object that an operator makes of two values that are not both integers. -/
def combined (h : Heap) (op : Operator) (v w : Value) : Attempt Heap.Cell := do
  let made ← if op = .add then joined h v w else pure Option.none
  match made with
  | some c => return c
  | Option.none => raise (.unsupportedOperands op (← v.type h) (← w.type h))

/-- The new object that an operator makes of two values. -/
def combine (op : Operator) (v w : Value) : HeapM Value := do
  let c ← Heap.inspect fun h => combined h op v w
  return .ref (← Heap.allocate c)

/-- `v op w` -/
def binary (op : Operator) (v w : Value) : HeapM Value :=
  match v, w with
  | .int m, .int n => Heap.inspect fun _ => ofArithmetic (Integer.apply op m n)
  | v, w => combine op v w

end Value

end Scriptlet
