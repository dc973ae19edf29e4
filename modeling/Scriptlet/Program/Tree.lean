import Scriptlet.Data.Integer
import Scriptlet.Program.Operator

/-!
# Program trees

A program as a host hands it over: a list of statements. Names are plain strings; where each of them is
bound is decided before the program runs.
-/

namespace Scriptlet.Program

mutual

/-- An expression. -/
inductive Expr where
  | none
  | bool (b : Bool)
  | int (n : Integer)
  | str (s : String)
  | name (x : String)
  | list (items : List Expr)
  | tuple (items : List Expr)
  | dict (entries : List (Expr × Expr))
  /-- `object[index]` -/
  | index (object index : Expr)
  /-- `object.attr` -/
  | attr (object : Expr) (attr : String)
  | call (callee : Expr) (args : List Arg)
  | binary (left : Expr) (op : Operator) (right : Expr)
  | compare (left : Expr) (op : Comparison) (right : Expr)
  | not (operand : Expr)
  | neg (operand : Expr)
  | and (left right : Expr)
  | or (left right : Expr)
  /-- `body if test else orelse` -/
  | cond (test body orelse : Expr)
  | lambda (params : List Param) (body : Expr)

/-- One entry of a parameter list, in the order of the source. -/
inductive Param where
  /-- `x` -/
  | required (x : String)
  /-- `x=value`; the value is computed once, when the definition runs. -/
  | defaulted (x : String) (value : Expr)
  /-- `*x` -/
  | rest (x : String)
  /-- A bare `*`: the parameters after it are given by keyword only. -/
  | bareStar
  /-- `**x` -/
  | keywords (x : String)

/-- One argument of a call. -/
inductive Arg where
  | positional (value : Expr)
  | keyword (x : String) (value : Expr)
  /-- `*iterable` -/
  | spread (value : Expr)
  /-- `**mapping` -/
  | spreadKeywords (value : Expr)

end

/-- What is assigned to. -/
inductive Target where
  | name (x : String)
  | index (object index : Expr)
  | tuple (targets : List Target)

/-- A statement. -/
inductive Stmt where
  | expr (e : Expr)
  | assign (target : Target) (value : Expr)
  /-- `target op= value`; on a list, `+=` extends it in place. -/
  | augment (target : Target) (op : Operator) (value : Expr)
  | branch (test : Expr) (body orelse : List Stmt)
  | loop (target : Target) (iter : Expr) (body : List Stmt)
  | leaveLoop
  | nextRound
  | pass
  | giveBack (value : Option Expr)
  | define (name : String) (params : List Param) (body : List Stmt)

instance : Inhabited Expr := ⟨.none⟩

instance : Inhabited Stmt := ⟨.pass⟩

/-- The name that a parameter binds; the bare star binds none. -/
def Param.name? : Param → Option String
  | .required x => some x
  | .defaulted x _ => some x
  | .rest x => some x
  | .bareStar => Option.none
  | .keywords x => some x

end Scriptlet.Program
