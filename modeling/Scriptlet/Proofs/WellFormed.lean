import Mathlib.Logic.Relation
import Scriptlet.Proofs.Code.ParamRules

/-!
# Well-formed programs

A program is well-formed if each of its parts keeps the rules of the language where it stands. The parts are found in
all its statements and expressions, whether they can ever run or not: in both branches and after a jump, in the bodies
of functions and in the defaults of their parameters. A rule only asks for the place of a part, which is the number of
functions around it and whether it stands in the body of a loop of the innermost of them.
-/

namespace Scriptlet.Program

/-! ## Parts -/

/-- Where a part of a program stands. -/
structure Place where
  /-- The number of functions around it. -/
  level : Nat
  /-- It stands in the body of a loop of the innermost function. -/
  inLoop : Bool
  deriving DecidableEq

namespace Place

/-- At the top of a program. -/
def top : Place := ⟨0, false⟩

/-- In the body of a loop. -/
def looped (here : Place) : Place := ⟨here.level, true⟩

/-- In the body of a function: its loops are its own. -/
def inner (here : Place) : Place := ⟨here.level + 1, false⟩

end Place

/-- A piece of syntax. -/
inductive Piece where
  | stmt (s : Stmt)
  | target (t : Target)
  | expr (e : Expr)
  | args (args : List Arg)
  | params (params : List Param)

/-- A piece of syntax and where it stands. -/
structure Part where
  place : Place
  piece : Piece

/-- The expression that gives the value of an argument. -/
def Arg.value : Arg → Expr
  | .positional value => value
  | .keyword _ value => value
  | .spread value => value
  | .spreadKeywords value => value

/-- The default of a parameter. -/
def Param.default? : Param → Option Expr
  | .defaulted _ value => some value
  | _ => Option.none

section parts

variable (here : Place)

@[simp]
def Expr.parts : Expr → List Part
  | .list items => items.map fun e => ⟨here, .expr e⟩
  | .tuple items => items.map fun e => ⟨here, .expr e⟩
  | .dict entries => entries.flatMap fun e => [⟨here, .expr e.1⟩, ⟨here, .expr e.2⟩]
  | .index object place => [⟨here, .expr object⟩, ⟨here, .expr place⟩]
  | .attr object _ => [⟨here, .expr object⟩]
  | .call callee args => [⟨here, .expr callee⟩, ⟨here, .args args⟩]
  | .binary left _ right => [⟨here, .expr left⟩, ⟨here, .expr right⟩]
  | .compare left _ right => [⟨here, .expr left⟩, ⟨here, .expr right⟩]
  | .not operand => [⟨here, .expr operand⟩]
  | .neg operand => [⟨here, .expr operand⟩]
  | .and left right => [⟨here, .expr left⟩, ⟨here, .expr right⟩]
  | .or left right => [⟨here, .expr left⟩, ⟨here, .expr right⟩]
  | .cond test body orelse => [⟨here, .expr test⟩, ⟨here, .expr body⟩, ⟨here, .expr orelse⟩]
  | .lambda params body => [⟨here, .params params⟩, ⟨here.inner, .expr body⟩]
  | _ => []

@[simp]
def Target.parts : Target → List Part
  | .name _ => []
  | .index object place => [⟨here, .expr object⟩, ⟨here, .expr place⟩]
  | .tuple targets => targets.map fun t => ⟨here, .target t⟩

@[simp]
def Stmt.parts : Stmt → List Part
  | .expr e => [⟨here, .expr e⟩]
  | .assign target value => [⟨here, .target target⟩, ⟨here, .expr value⟩]
  | .augment target _ value => [⟨here, .target target⟩, ⟨here, .expr value⟩]
  | .branch test body orelse => ⟨here, .expr test⟩ :: (body ++ orelse).map fun s => ⟨here, .stmt s⟩
  | .loop target iter body =>
    ⟨here, .target target⟩ :: ⟨here, .expr iter⟩ :: body.map fun s => ⟨here.looped, .stmt s⟩
  | .giveBack value => value.toList.map fun e => ⟨here, .expr e⟩
  | .define _ params body => ⟨here, .params params⟩ :: body.map fun s => ⟨here.inner, .stmt s⟩
  | _ => []

end parts

/-- The parts that a part directly consists of. -/
@[simp]
def Part.parts : Part → List Part
  | ⟨here, .stmt s⟩ => s.parts here
  | ⟨here, .target t⟩ => t.parts here
  | ⟨here, .expr e⟩ => e.parts here
  | ⟨here, .args args⟩ => args.map fun a => ⟨here, .expr a.value⟩
  | ⟨here, .params params⟩ => (params.filterMap (·.default?)).map fun e => ⟨here, .expr e⟩

/-- A part is found in another one, at any depth. -/
def Part.Holds : Part → Part → Prop := Relation.ReflTransGen fun p q => q ∈ p.parts

/-- A part is found in a program. -/
def Holds (program : List Stmt) (q : Part) : Prop := ∃ s ∈ program, Part.Holds ⟨.top, .stmt s⟩ q

/-! ## Rules -/

def Arg.isPositional : Arg → Bool
  | .positional _ => true
  | _ => false

/-- The argument gives one keyword argument or several. -/
def Arg.isKeyword : Arg → Bool
  | .keyword .. => true
  | .spreadKeywords _ => true
  | _ => false

def Target.isTuple : Target → Bool
  | .tuple _ => true
  | _ => false

/-- The rules for an argument list: no positional argument follows a keyword argument. -/
def ProperArgs (args : List Arg) : Prop := args.Pairwise fun a b => a.isKeyword → ¬ b.isPositional

/-- A part keeps the rules where it stands. -/
@[simp]
def Part.Proper : Part → Prop
  | ⟨here, .stmt .leaveLoop⟩ => here.inLoop
  | ⟨here, .stmt .nextRound⟩ => here.inLoop
  | ⟨here, .stmt (.giveBack _)⟩ => 0 < here.level
  | ⟨_, .stmt (.augment target _ _)⟩ => ¬ target.isTuple
  | ⟨_, .args args⟩ => ProperArgs args
  | ⟨_, .params params⟩ => ProperParams params
  | _ => True

/-- All parts of a program keep the rules. -/
def WellFormed (program : List Stmt) : Prop := ∀ q, Holds program q → q.Proper

/-! ## Properties of all parts -/

/-- A property of a part and of all parts that are found in it. -/
def Part.All (P : Part → Prop) (p : Part) : Prop := ∀ q, p.Holds q → P q

namespace Part.All

variable {P : Part → Prop} {p q : Part}

theorem self (h : All P p) : P p := h p .refl

theorem part (h : All P p) (hq : q ∈ p.parts) : All P q := fun r hr => h r (hr.head hq)

theorem of_parts (self : P p) (parts : ∀ q ∈ p.parts, All P q) : All P p := by
  intro r hr
  rcases hr.cases_head with rfl | ⟨q, hq, hr⟩
  · exact self
  · exact parts q hq r hr

end Part.All

theorem Part.all_iff {P : Part → Prop} {p : Part} : All P p ↔ P p ∧ ∀ q ∈ p.parts, All P q :=
  ⟨fun h => ⟨h.self, fun _ hq => h.part hq⟩, fun h => .of_parts h.1 h.2⟩

theorem forall_holds_iff {P : Part → Prop} {program : List Stmt} :
    (∀ q, Holds program q → P q) ↔ ∀ s ∈ program, Part.All P ⟨.top, .stmt s⟩ := by
  constructor
  · intro h s hs q hq
    exact h q ⟨s, hs, hq⟩
  · rintro h q ⟨s, hs, hq⟩
    exact h s hs q hq

end Scriptlet.Program
