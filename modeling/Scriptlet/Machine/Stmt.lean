import Scriptlet.Code.Function
import Scriptlet.Machine.Expr

/-!
# Execution

Statements run one after another. A loop runs over a snapshot of its items, so changing the container does
not change the loop.
-/

namespace Scriptlet

open Code (Body Expr Stmt Target)
open Program (Operator)

/-- How a statement ended. -/
inductive Flow where
  /-- The next statement follows. -/
  | next
  /-- The call is over, with this result. -/
  | result (v : Value)
  /-- The innermost loop is over. -/
  | leaveLoop
  /-- The next round of the innermost loop follows. -/
  | nextRound
  deriving DecidableEq, Inhabited

namespace Engine

variable {σ : Type}

/-! ## Assignment -/

mutual

/-- Assigns a value to a target. -/
def assign (k : Engine σ) : Target → Value → EStateM Failure σ Unit
  | .name x, v => k.store x v
  | .index object index, v => do
    let object ← k.eval object
    let index ← k.eval index
    k.setItem object index v
  | .tuple targets, v => do
    let items ← k.items v
    if items.length = targets.length then k.assignAll targets items
    else raise (.unpackMismatch items.length targets.length)

/-- Assigns values to targets, one by one. -/
def assignAll (k : Engine σ) : List Target → List Value → EStateM Failure σ Unit
  | t :: ts, v :: vs => do
    k.assign t v
    k.assignAll ts vs
  | _, _ => return

end

/-- `target op= e` -/
def augmentTarget (k : Engine σ) (target : Target) (op : Operator) (e : Expr) :
    EStateM Failure σ Unit := do
  match target with
  | .name x =>
    let current ← k.load x
    let v ← k.eval e
    let updated ← k.augment op current v
    k.store x updated
  | .index object index =>
    let object ← k.eval object
    let index ← k.eval index
    let current ← k.item object index
    let v ← k.eval e
    let updated ← k.augment op current v
    k.setItem object index updated
  | .tuple _ => raise (.malformed .tupleAugment)

/-! ## Statements -/

/-- Runs a round of a loop for each item, until one leaves the loop or the call. -/
def rounds (round : Value → EStateM Failure σ Flow) : List Value → EStateM Failure σ Flow
  | [] => return .next
  | v :: vs => do
    match ← round v with
    | .leaveLoop => return .next
    | .result w => return .result w
    | .next => rounds round vs
    | .nextRound => rounds round vs

mutual

/-- Runs a statement. -/
def exec (k : Engine σ) : Stmt → EStateM Failure σ Flow
  | .expr e => do
    let _ ← k.eval e
    return .next
  | .assign target e => do
    let v ← k.eval e
    k.assign target v
    return .next
  | .augment target op e => do
    k.augmentTarget target op e
    return .next
  | .branch test body orelse => do
    let v ← k.eval test
    if ← k.truthy v then k.execBlock body else k.execBlock orelse
  | .loop target iter body => do
    let v ← k.eval iter
    let items ← k.items v
    rounds (fun item => do
      k.assign target item
      k.execBlock body) items
  | .leaveLoop => return .leaveLoop
  | .nextRound => return .nextRound
  | .pass => return .next
  | .giveBack none => return .result .none
  | .giveBack (some e) => do
    let v ← k.eval e
    return .result v
  | .define x id defaults => do
    let defaults ← k.evalAll defaults
    let f ← k.function id defaults
    k.store x f
    return .next

/-- Runs statements until one of them does not simply go on. -/
def execBlock (k : Engine σ) : List Stmt → EStateM Failure σ Flow
  | [] => return .next
  | s :: ss => do
    k.begin s.kind
    match ← k.exec s with
    | .next => k.execBlock ss
    | flow => return flow

end

/-- Runs the body of a function. -/
def execBody (k : Engine σ) : Body → EStateM Failure σ Value
  | .expr e => k.eval e
  | .block stmts => do
    match ← k.execBlock stmts with
    | .result v => return v
    | _ => return .none

end Engine

end Scriptlet
