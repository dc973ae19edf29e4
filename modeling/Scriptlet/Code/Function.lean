import Scriptlet.Code.Signature
import Scriptlet.Code.Tree

/-!
# Functions

A function definition is resolved once, and each time it runs it makes a new function value that refers
back to it.
-/

namespace Scriptlet.Code

/-- What a call of a function runs. -/
inductive Body where
  /-- Statements; the call gives back what they give back. -/
  | block (stmts : List Stmt)
  /-- An expression; the call gives back its value. -/
  | expr (e : Expr)

instance : Inhabited Body := ⟨.block []⟩

/-- A function definition. -/
structure Function where
  name : String
  signature : Signature
  body : Body
  /-- Whether the definition stands inside another function, whose variables it can then read. -/
  nested : Bool
  deriving Inhabited

end Scriptlet.Code
