import Scriptlet.Machine.Engine

/-!
# Evaluation

Expressions are evaluated from left to right. Calls go through the engine, so evaluation itself is a
structural recursion on the expression.
-/

namespace Scriptlet.Engine

open Call (Args)
open Code (Arg Expr)

variable {σ : Type}

mutual

/-- Evaluates an expression. -/
def eval (k : Engine σ) : Expr → EStateM Failure σ Value
  | .literal l => return l.value
  | .name x => k.load x
  | .list items => do
    let items ← k.evalAll items
    k.list items
  | .tuple items => do
    let items ← k.evalAll items
    k.tuple items
  | .dict entries => do
    let entries ← k.evalEntries .empty entries
    k.dict entries
  | .index object index => do
    let object ← k.eval object
    let index ← k.eval index
    k.item object index
  | .attr object attr => do
    let object ← k.eval object
    k.attr object attr
  | .call callee args => do
    let callee ← k.eval callee
    let args ← k.evalArgs args
    k.call callee args
  | .binary left op right => do
    let left ← k.eval left
    let right ← k.eval right
    k.binary op left right
  | .compare left op right => do
    let left ← k.eval left
    let right ← k.eval right
    let b ← k.compare op left right
    return .bool b
  | .not operand => do
    let v ← k.eval operand
    let b ← k.truthy v
    return .bool !b
  | .neg operand => do
    let v ← k.eval operand
    k.negate v
  | .and left right => do
    let v ← k.eval left
    if ← k.truthy v then k.eval right else return v
  | .or left right => do
    let v ← k.eval left
    if ← k.truthy v then return v else k.eval right
  | .cond test body orelse => do
    let v ← k.eval test
    if ← k.truthy v then k.eval body else k.eval orelse
  | .function id defaults => do
    let defaults ← k.evalAll defaults
    k.function id defaults

/-- Evaluates expressions from left to right. -/
def evalAll (k : Engine σ) : List Expr → EStateM Failure σ (List Value)
  | [] => return []
  | e :: es => do
    let v ← k.eval e
    let vs ← k.evalAll es
    return v :: vs

/-- Evaluates dictionary entries, each key before its value, on top of some entries. -/
def evalEntries (k : Engine σ) (entries : OrderedMap Key (Value × Value)) :
    List (Expr × Expr) → EStateM Failure σ (OrderedMap Key (Value × Value))
  | [] => return entries
  | (index, value) :: es => do
    let i ← k.eval index
    let v ← k.eval value
    let key ← k.key i
    k.evalEntries (entries.insert key (i, v)) es

/-- Evaluates arguments from left to right. -/
def evalArgs (k : Engine σ) : List Arg → EStateM Failure σ Args
  | [] => return {}
  | .positional e :: more => do
    let v ← k.eval e
    let args ← k.evalArgs more
    return args.consPositional [v]
  | .keyword x e :: more => do
    let v ← k.eval e
    let args ← k.evalArgs more
    return args.consKeywords [(x, v)]
  | .spread e :: more => do
    let v ← k.eval e
    let items ← k.items v
    let args ← k.evalArgs more
    return args.consPositional items
  | .spreadKeywords e :: more => do
    let v ← k.eval e
    let keywords ← k.keywords v
    let args ← k.evalArgs more
    return args.consKeywords keywords

end

end Scriptlet.Engine
