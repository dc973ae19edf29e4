import Scriptlet.Program.Operator
import Scriptlet.Trace.Event
import Scriptlet.Value.Basic

/-!
# Resolved programs

What the machine runs. A resolved tree is a program tree in which every name carries the scope that binds
it, and every definition has moved to a table of functions: only its place in the table and the expressions
for its defaults stay behind.
-/

namespace Scriptlet.Code

open Program (Operator Comparison)

/-- Where a name is bound. -/
inductive Scope where
  /-- In the call that is running. -/
  | own
  /-- In a call that encloses the definition, this many levels up. -/
  | outer (levels : Nat)
  /-- In the module, or among the host functions. -/
  | global
  deriving DecidableEq, Inhabited

/-- A name with its scope. -/
structure Name where
  text : String
  scope : Scope
  deriving DecidableEq, Inhabited

/-- A value that stands in the program. -/
inductive Literal where
  | none
  | bool (b : Bool)
  | int (n : Integer)
  | str (s : String)
  deriving DecidableEq, Inhabited

def Literal.value : Literal → Value
  | .none => .none
  | .bool b => .bool b
  | .int n => .int n
  | .str s => .text s

mutual

/-- A resolved expression. -/
inductive Expr where
  | literal (l : Literal)
  | name (x : Name)
  | list (items : List Expr)
  | tuple (items : List Expr)
  | dict (entries : List (Expr × Expr))
  | index (object index : Expr)
  | attr (object : Expr) (attr : String)
  | call (callee : Expr) (args : List Arg)
  | binary (left : Expr) (op : Operator) (right : Expr)
  | compare (left : Expr) (op : Comparison) (right : Expr)
  | not (operand : Expr)
  | neg (operand : Expr)
  | and (left right : Expr)
  | or (left right : Expr)
  | cond (test body orelse : Expr)
  /-- Makes a function; the defaults belong to the scope of the definition. -/
  | function (id : FunctionId) (defaults : List Expr)

/-- A resolved argument. -/
inductive Arg where
  | positional (value : Expr)
  | keyword (x : String) (value : Expr)
  | spread (value : Expr)
  | spreadKeywords (value : Expr)

end

/-- A resolved target. -/
inductive Target where
  | name (x : Name)
  | index (object index : Expr)
  | tuple (targets : List Target)

/-- A resolved statement. -/
inductive Stmt where
  | expr (e : Expr)
  | assign (target : Target) (value : Expr)
  | augment (target : Target) (op : Operator) (value : Expr)
  | branch (test : Expr) (body orelse : List Stmt)
  | loop (target : Target) (iter : Expr) (body : List Stmt)
  | leaveLoop
  | nextRound
  | pass
  | giveBack (value : Option Expr)
  | define (target : Name) (id : FunctionId) (defaults : List Expr)

instance : Inhabited Expr := ⟨.literal .none⟩

instance : Inhabited Stmt := ⟨.pass⟩

/-- The sort of a statement, as tracers see it. -/
def Stmt.kind : Stmt → Trace.StatementKind
  | .expr _ => .expr
  | .assign .. => .assign
  | .augment .. => .augment
  | .branch .. => .branch
  | .loop .. => .loop
  | .leaveLoop => .leaveLoop
  | .nextRound => .nextRound
  | .pass => .pass
  | .giveBack _ => .giveBack
  | .define .. => .define

end Scriptlet.Code
