import Scriptlet.Code.Function
import Scriptlet.Code.Lexicon

/-!
# Resolution

Resolution turns a program tree into a resolved tree. It decides for each name where it is bound: a function
binds its parameters and every name that its body assigns to, a name bound by an enclosing function belongs
to that function, and all other names are global. It moves definitions to the table of functions, and it
refuses programs in which a statement, an argument or a parameter is out of place.

Globals are not looked up here, so a function may use a global that is assigned later.
-/

namespace Scriptlet

open Fault (Malformed)

namespace Program

/-! ## The names that a function body assigns to -/

mutual

/-- The names that a target assigns to. -/
def Target.names : Target → List String
  | .name x => [x]
  | .index .. => []
  | .tuple targets => targetNames targets

/-- The names that some targets assign to. -/
def targetNames : List Target → List String
  | [] => []
  | t :: ts => t.names ++ targetNames ts

end

mutual

/-- The names that a statement assigns to; the body of a nested function is not looked into. -/
def Stmt.assigned : Stmt → List String
  | .assign target _ => target.names
  | .augment target _ _ => target.names
  | .branch _ body orelse => assignedNames body ++ assignedNames orelse
  | .loop target _ body => target.names ++ assignedNames body
  | .define name _ _ => [name]
  | _ => []

/-- The names that some statements assign to. -/
def assignedNames : List Stmt → List String
  | [] => []
  | s :: ss => s.assigned ++ assignedNames ss

end

end Program

namespace Code

/-- What resolution adds to. -/
structure Draft where
  lexicon : Lexicon := {}
  functions : Array Function := #[]
  deriving Inhabited

/-- A step of resolution. A refused program leaves the words that were met before the defect. -/
abbrev Resolving := EStateM Malformed Draft

/-- The names bound by the functions around a piece of program, innermost first. -/
abbrev Scopes := List (List String)

/-- The number of function levels that a name can be looked up through. -/
def maxLevels : Nat := 65535

namespace Resolving

/-- Meets a word. -/
def learn (w : String) : Resolving Unit :=
  modify fun d => { d with lexicon := d.lexicon.learn w }

/-- Meets some words. -/
def learnAll : List String → Resolving Unit
  | [] => pure ()
  | w :: ws => do
    learn w
    learnAll ws

/-- Adds a function to the table. -/
def addFunction (f : Function) : Resolving FunctionId := do
  let id := (← get).functions.size
  modify fun d => { d with functions := d.functions.push f }
  return ⟨id⟩

/-- Decides where a name is bound. -/
def name (scopes : Scopes) (x : String) : Resolving Name := do
  learn x
  match scopes.findIdx? (·.contains x) with
  | none => return ⟨x, .global⟩
  | some 0 => return ⟨x, .own⟩
  | some levels =>
    if maxLevels < levels then throw .tooDeeplyNested
    return ⟨x, .outer levels⟩

/-- Resolves a definition: its parameter list is checked, its defaults are resolved in the scope of the
definition, and its body in a scope of its own. -/
def definition (scopes : Scopes) (name : String) (params : List Program.Param)
    (assigned : List String) (defaults : Resolving (List Expr)) (body : Scopes → Resolving Body) :
    Resolving (FunctionId × List Expr) := do
  learn name
  let groups ← MonadExcept.ofExcept (ParamGroups.ofParams name params)
  let defaults ← defaults
  let bound := params.filterMap (·.name?) ++ assigned
  learnAll bound
  let body ← body (bound :: scopes)
  let id ← addFunction
    { name, signature := .ofGroups groups, body, nested := !scopes.isEmpty }
  return (id, defaults)

end Resolving

end Code

namespace Program

open Code (Scopes Resolving)

/-! ## Expressions -/

mutual

/-- Resolves an expression. -/
def Expr.resolve (scopes : Scopes) : Expr → Resolving Code.Expr
  | .none => return .literal .none
  | .bool b => return .literal (.bool b)
  | .int n => return .literal (.int n)
  | .str s => do
    Resolving.learn s
    return .literal (.str s)
  | .name x => return .name (← Resolving.name scopes x)
  | .list items => return .list (← resolveExprs scopes items)
  | .tuple items => return .tuple (← resolveExprs scopes items)
  | .dict entries => return .dict (← resolveEntries scopes entries)
  | .index object index => do
    let object ← object.resolve scopes
    let index ← index.resolve scopes
    return .index object index
  | .attr object attr => do
    let object ← object.resolve scopes
    Resolving.learn attr
    return .attr object attr
  | .call callee args => do
    let callee ← callee.resolve scopes
    let args ← resolveArgs scopes false args
    return .call callee args
  | .binary left op right => do
    let left ← left.resolve scopes
    let right ← right.resolve scopes
    return .binary left op right
  | .compare left op right => do
    let left ← left.resolve scopes
    let right ← right.resolve scopes
    return .compare left op right
  | .not operand => return .not (← operand.resolve scopes)
  | .neg operand => return .neg (← operand.resolve scopes)
  | .and left right => do
    let left ← left.resolve scopes
    let right ← right.resolve scopes
    return .and left right
  | .or left right => do
    let left ← left.resolve scopes
    let right ← right.resolve scopes
    return .or left right
  | .cond test body orelse => do
    let test ← test.resolve scopes
    let body ← body.resolve scopes
    let orelse ← orelse.resolve scopes
    return .cond test body orelse
  | .lambda params body => do
    let (id, defaults) ← Resolving.definition scopes "lambda" params []
      (resolveDefaults scopes params) fun inner => return .expr (← body.resolve inner)
    return .function id defaults

/-- Resolves expressions from left to right. -/
def resolveExprs (scopes : Scopes) : List Expr → Resolving (List Code.Expr)
  | [] => return []
  | e :: es => do
    let e ← e.resolve scopes
    let es ← resolveExprs scopes es
    return e :: es

/-- Resolves dictionary entries, each key before its value. -/
def resolveEntries (scopes : Scopes) : List (Expr × Expr) → Resolving (List (Code.Expr × Code.Expr))
  | [] => return []
  | (k, v) :: es => do
    let k ← k.resolve scopes
    let v ← v.resolve scopes
    let es ← resolveEntries scopes es
    return (k, v) :: es

/-- Resolves arguments; `keywordSeen` says whether a keyword argument came before. -/
def resolveArgs (scopes : Scopes) (keywordSeen : Bool) : List Arg → Resolving (List Code.Arg)
  | [] => return []
  | .positional value :: args => do
    if keywordSeen then throw .positionalAfterKeyword
    let value ← value.resolve scopes
    let args ← resolveArgs scopes keywordSeen args
    return .positional value :: args
  | .keyword x value :: args => do
    Resolving.learn x
    let value ← value.resolve scopes
    let args ← resolveArgs scopes true args
    return .keyword x value :: args
  | .spread value :: args => do
    let value ← value.resolve scopes
    let args ← resolveArgs scopes keywordSeen args
    return .spread value :: args
  | .spreadKeywords value :: args => do
    let value ← value.resolve scopes
    let args ← resolveArgs scopes true args
    return .spreadKeywords value :: args

/-- Resolves the defaults of a parameter list, from left to right. -/
def resolveDefaults (scopes : Scopes) : List Param → Resolving (List Code.Expr)
  | [] => return []
  | .defaulted _ value :: params => do
    let value ← value.resolve scopes
    let defaults ← resolveDefaults scopes params
    return value :: defaults
  | .required _ :: params => resolveDefaults scopes params
  | .rest _ :: params => resolveDefaults scopes params
  | .bareStar :: params => resolveDefaults scopes params
  | .keywords _ :: params => resolveDefaults scopes params

end

/-! ## Statements -/

mutual

/-- Resolves a target. -/
def Target.resolve (scopes : Scopes) : Target → Resolving Code.Target
  | .name x => return .name (← Resolving.name scopes x)
  | .index object index => do
    let object ← object.resolve scopes
    let index ← index.resolve scopes
    return .index object index
  | .tuple targets => return .tuple (← resolveTargets scopes targets)

/-- Resolves targets from left to right. -/
def resolveTargets (scopes : Scopes) : List Target → Resolving (List Code.Target)
  | [] => return []
  | t :: ts => do
    let t ← t.resolve scopes
    let ts ← resolveTargets scopes ts
    return t :: ts

end

mutual

/-- Resolves a statement; `inLoop` says whether it stands in a loop of the same function. -/
def Stmt.resolve (scopes : Scopes) (inLoop : Bool) : Stmt → Resolving Code.Stmt
  | .expr e => return .expr (← e.resolve scopes)
  | .assign target value => do
    let value ← value.resolve scopes
    let target ← target.resolve scopes
    return .assign target value
  | .augment (.tuple _) _ _ => throw .tupleAugment
  | .augment target op value => do
    let value ← value.resolve scopes
    let target ← target.resolve scopes
    return .augment target op value
  | .branch test body orelse => do
    let test ← test.resolve scopes
    let body ← resolveBlock scopes inLoop body
    let orelse ← resolveBlock scopes inLoop orelse
    return .branch test body orelse
  | .loop target iter body => do
    let iter ← iter.resolve scopes
    let target ← target.resolve scopes
    let body ← resolveBlock scopes true body
    return .loop target iter body
  | .leaveLoop => if inLoop then return .leaveLoop else throw .breakOutsideLoop
  | .nextRound => if inLoop then return .nextRound else throw .continueOutsideLoop
  | .pass => return .pass
  | .giveBack value =>
    if scopes.isEmpty then throw .returnOutsideFunction
    else
      match value with
      | none => return .giveBack none
      | some e => return .giveBack (some (← e.resolve scopes))
  | .define name params body => do
    let (id, defaults) ← Resolving.definition scopes name params (assignedNames body)
      (resolveDefaults scopes params) fun inner => return .block (← resolveBlock inner false body)
    return .define (← Resolving.name scopes name) id defaults

/-- Resolves statements from first to last. -/
def resolveBlock (scopes : Scopes) (inLoop : Bool) : List Stmt → Resolving (List Code.Stmt)
  | [] => return []
  | s :: ss => do
    let s ← s.resolve scopes inLoop
    let ss ← resolveBlock scopes inLoop ss
    return s :: ss

end

end Program

namespace Code.Draft

/-- Runs a step of resolution at module level. If it refuses, the functions that it has added are cut off from the
table. -/
def attempt {α : Type} (d : Draft) (step : Resolving α) : Except Malformed α × Draft :=
  let known := d.functions.size
  match step d with
  | .ok a d => (.ok a, d)
  | .error e d => (.error e, { d with functions := d.functions.shrink known })

/-- Resolves a program. -/
def resolveProgram (d : Draft) (program : List Program.Stmt) : Except Malformed (List Stmt) × Draft :=
  d.attempt (Program.resolveBlock [] false program)

/-- Resolves an expression. -/
def resolveExpr (d : Draft) (e : Program.Expr) : Except Malformed Expr × Draft :=
  d.attempt (e.resolve [])

end Code.Draft

end Scriptlet
