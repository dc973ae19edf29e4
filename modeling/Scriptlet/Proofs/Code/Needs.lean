import Scriptlet.Code.Function

/-!
# What code needs

The names that a piece of code reads and assigns, the words it holds and the functions it makes. Whatever is
required of code is required of each of its needs, so requirements are weakened, combined and passed on to parts
by the laws of lists.
-/

namespace Scriptlet.Code

/-- Something that a piece of code asks of the activation it runs in. -/
inductive Need where
  /-- Reads a variable. -/
  | load (x : Name)
  /-- Assigns to a variable. -/
  | store (x : Name)
  /-- Holds a literal string, an attribute or a keyword. -/
  | word (s : String)
  /-- Makes a function with so many default values. -/
  | make (id : FunctionId) (defaults : Nat)
  deriving DecidableEq

/-- The function that is made, if the need is to make one. -/
def Need.made? : Need → Option FunctionId
  | .make id _ => some id
  | _ => none

def Literal.needs : Literal → List Need
  | .str s => [.word s]
  | _ => []

mutual

/-- The needs of an expression. -/
def Expr.needs : Expr → List Need
  | .literal l => l.needs
  | .name x => [.load x]
  | .list items => exprsNeeds items
  | .tuple items => exprsNeeds items
  | .dict entries => entriesNeeds entries
  | .index object index => object.needs ++ index.needs
  | .attr object attr => .word attr :: object.needs
  | .call callee args => callee.needs ++ argsNeeds args
  | .binary left _ right => left.needs ++ right.needs
  | .compare left _ right => left.needs ++ right.needs
  | .not operand => operand.needs
  | .neg operand => operand.needs
  | .and left right => left.needs ++ right.needs
  | .or left right => left.needs ++ right.needs
  | .cond test body orelse => test.needs ++ body.needs ++ orelse.needs
  | .function id defaults => .make id defaults.length :: exprsNeeds defaults

/-- The needs of some expressions. -/
def exprsNeeds : List Expr → List Need
  | [] => []
  | e :: es => e.needs ++ exprsNeeds es

/-- The needs of dictionary entries. -/
def entriesNeeds : List (Expr × Expr) → List Need
  | [] => []
  | (k, v) :: es => k.needs ++ v.needs ++ entriesNeeds es

/-- The needs of arguments. -/
def argsNeeds : List Arg → List Need
  | [] => []
  | .positional e :: more => e.needs ++ argsNeeds more
  | .keyword x e :: more => .word x :: (e.needs ++ argsNeeds more)
  | .spread e :: more => e.needs ++ argsNeeds more
  | .spreadKeywords e :: more => e.needs ++ argsNeeds more

end

mutual

/-- The needs of an assignment to a target. -/
def Target.needs : Target → List Need
  | .name x => [.store x]
  | .index object index => object.needs ++ index.needs
  | .tuple targets => targetsNeeds targets

/-- The needs of an assignment to some targets. -/
def targetsNeeds : List Target → List Need
  | [] => []
  | t :: ts => t.needs ++ targetsNeeds ts

end

/-- What reading the target of an augmented assignment needs, beyond assigning to it. -/
def Target.reads : Target → List Need
  | .name x => [.load x]
  | _ => []

mutual

/-- The needs of a statement. -/
def Stmt.needs : Stmt → List Need
  | .expr e => e.needs
  | .assign target value => target.needs ++ value.needs
  | .augment target _ value => target.reads ++ target.needs ++ value.needs
  | .branch test body orelse => test.needs ++ blockNeeds body ++ blockNeeds orelse
  | .loop target iter body => target.needs ++ iter.needs ++ blockNeeds body
  | .leaveLoop => []
  | .nextRound => []
  | .pass => []
  | .giveBack none => []
  | .giveBack (some e) => e.needs
  | .define x id defaults => .store x :: .make id defaults.length :: exprsNeeds defaults

/-- The needs of some statements. -/
def blockNeeds : List Stmt → List Need
  | [] => []
  | s :: ss => s.needs ++ blockNeeds ss

end

/-- The needs of a function body. -/
def Body.needs : Body → List Need
  | .block stmts => blockNeeds stmts
  | .expr e => e.needs

/-- The functions that a body makes. -/
def Body.made (b : Body) : List FunctionId := b.needs.filterMap Need.made?

/-! ## Expressions assign to nothing -/

mutual

theorem Expr.store_not_mem_needs (x : Name) : (e : Expr) → .store x ∉ e.needs
  | .literal l => by cases l <;> simp [Expr.needs, Literal.needs]
  | .name _ => by simp [Expr.needs]
  | .list items => exprs_store_not_mem_needs x items
  | .tuple items => exprs_store_not_mem_needs x items
  | .dict entries => entries_store_not_mem_needs x entries
  | .index object index => by
    simp [Expr.needs, object.store_not_mem_needs x, index.store_not_mem_needs x]
  | .attr object _ => by simp [Expr.needs, object.store_not_mem_needs x]
  | .call callee args => by
    simp [Expr.needs, callee.store_not_mem_needs x, args_store_not_mem_needs x args]
  | .binary left _ right => by
    simp [Expr.needs, left.store_not_mem_needs x, right.store_not_mem_needs x]
  | .compare left _ right => by
    simp [Expr.needs, left.store_not_mem_needs x, right.store_not_mem_needs x]
  | .not operand => operand.store_not_mem_needs x
  | .neg operand => operand.store_not_mem_needs x
  | .and left right => by
    simp [Expr.needs, left.store_not_mem_needs x, right.store_not_mem_needs x]
  | .or left right => by
    simp [Expr.needs, left.store_not_mem_needs x, right.store_not_mem_needs x]
  | .cond test body orelse => by
    simp [Expr.needs, test.store_not_mem_needs x, body.store_not_mem_needs x,
      orelse.store_not_mem_needs x]
  | .function _ defaults => by simp [Expr.needs, exprs_store_not_mem_needs x defaults]

theorem exprs_store_not_mem_needs (x : Name) : (es : List Expr) → .store x ∉ exprsNeeds es
  | [] => by simp [exprsNeeds]
  | e :: es => by simp [exprsNeeds, e.store_not_mem_needs x, exprs_store_not_mem_needs x es]

theorem entries_store_not_mem_needs (x : Name) :
    (es : List (Expr × Expr)) → .store x ∉ entriesNeeds es
  | [] => by simp [entriesNeeds]
  | (k, v) :: es => by
    simp [entriesNeeds, k.store_not_mem_needs x, v.store_not_mem_needs x,
      entries_store_not_mem_needs x es]

theorem args_store_not_mem_needs (x : Name) : (args : List Arg) → .store x ∉ argsNeeds args
  | [] => by simp [argsNeeds]
  | .positional e :: more | .keyword _ e :: more | .spread e :: more | .spreadKeywords e :: more => by
    simp [argsNeeds, e.store_not_mem_needs x, args_store_not_mem_needs x more]

end

end Scriptlet.Code
