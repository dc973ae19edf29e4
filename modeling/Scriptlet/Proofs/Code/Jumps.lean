import Scriptlet.Proofs.Code.Growth

/-!
# Jumps stay in their constructs

In the code of an accepted program, the statements that leave a loop or go on with its next round stand in loops, and
the statements that give a value back stand in functions. The bodies of the functions that the program adds to the table
are confined in the same way, and no loop around a definition counts for its body.
-/

namespace Scriptlet

namespace Code

/-! ## Confined code -/

mutual

/-- The jumps of a statement have something to jump out of: a loop if `inLoop`, a call if `inCall`. -/
def Stmt.Confined (inLoop inCall : Bool) : Stmt → Prop
  | .branch _ body orelse => BlockConfined inLoop inCall body ∧ BlockConfined inLoop inCall orelse
  | .loop _ _ body => BlockConfined true inCall body
  | .leaveLoop => inLoop
  | .nextRound => inLoop
  | .giveBack _ => inCall
  | _ => True

def BlockConfined (inLoop inCall : Bool) : List Stmt → Prop
  | [] => True
  | s :: ss => s.Confined inLoop inCall ∧ BlockConfined inLoop inCall ss

end

/-- A body is left by giving a value back only. -/
def Body.Confined : Body → Prop
  | .block stmts => BlockConfined false true stmts
  | .expr _ => True

/-- All functions of the table have confined bodies. -/
def Draft.Confined (d : Draft) : Prop := ∀ f ∈ d.functions, f.body.Confined

/-! ## Steps of resolution -/

namespace Resolving

variable {α β : Type}

/-- A step of resolution that goes on keeps the functions confined, and its result meets a condition. -/
def Confines (step : Resolving α) (R : α → Prop) : Prop :=
  ∀ ⦃d a d'⦄, d.Confined → step d = .ok a d' → d'.Confined ∧ R a

namespace Confines

variable {x : Resolving α} {R : α → Prop} {P : β → Prop}

theorem pure {a : α} (h : R a) : Confines (Pure.pure a) R := by
  intro d a d' hd ran
  cases ran
  exact ⟨hd, h⟩

theorem throw (e : Fault.Malformed) : Confines (MonadExcept.throw e : Resolving α) R := by
  intro d a d' hd ran
  cases ran

theorem bind {f : α → Resolving β} (hx : Confines x R) (hf : ∀ a, R a → Confines (f a) P) : Confines (x >>= f) P := by
  intro d b d' hd ran
  simp only [Bind.bind, EStateM.bind] at ran
  cases first : x d with
  | error e d₁ =>
    rw [first] at ran
    cases ran
  | ok a d₁ =>
    rw [first] at ran
    obtain ⟨hd₁, ha⟩ := hx hd first
    exact hf a ha hd₁ ran

/-- A step whose result is passed on. -/
theorem map {f : α → β} (hx : Confines x R) (hf : ∀ a, R a → P (f a)) : Confines (x >>= fun a => Pure.pure (f a)) P :=
  hx.bind fun a ha => .pure (hf a ha)

theorem learn (w : String) : Confines (Resolving.learn w) fun _ => True := by
  intro d a d' hd ran
  cases ran
  exact ⟨hd, trivial⟩

theorem learnAll (ws : List String) : Confines (Resolving.learnAll ws) fun _ => True := by
  induction ws with
  | nil => exact .pure trivial
  | cons w ws ih => exact (learn w).bind fun _ _ => ih

theorem addFunction {f : Function} (h : f.body.Confined) : Confines (Resolving.addFunction f) fun _ => True := by
  intro d a d' hd ran
  cases ran
  refine ⟨fun g hg => ?_, trivial⟩
  rcases Array.mem_push.1 hg with hg | rfl
  · exact hd g hg
  · exact h

theorem name (scopes : Scopes) (x : String) : Confines (Resolving.name scopes x) fun _ => True := by
  refine (learn x).bind fun _ _ => ?_
  cases scopes.findIdx? (·.contains x) with
  | none => exact .pure trivial
  | some i =>
    cases i with
    | zero => exact .pure trivial
    | succ i =>
      simp only
      split
      · exact .throw _
      · exact .pure trivial

theorem definition {scopes : Scopes} {function : String} {params : List Program.Param} {assigned : List String}
    {defaults : Resolving (List Expr)} {body : Scopes → Resolving Body}
    (hd : Confines defaults fun _ => True) (hb : ∀ bound, Confines (body (bound :: scopes)) Body.Confined) :
    Confines (Resolving.definition scopes function params assigned defaults body) fun _ => True := by
  unfold Resolving.definition
  refine (learn function).bind fun _ _ => ?_
  cases ParamGroups.ofParams function params with
  | error e => exact .throw e
  | ok groups =>
    simp only [MonadExcept.ofExcept, pure_bind]
    exact hd.bind fun _ _ => (learnAll _).bind fun _ _ => (hb _).bind fun b confined =>
      (addFunction confined).map fun _ _ => trivial

end Confines

end Resolving

end Code

/-! ## Programs -/

namespace Program

open Code (BlockConfined Scopes)
open Code.Resolving (Confines)

mutual

theorem Expr.confines_resolve (scopes : Scopes) : (e : Expr) → Confines (e.resolve scopes) fun _ => True
  | .none => .pure trivial
  | .bool _ => .pure trivial
  | .int _ => .pure trivial
  | .str s => (Confines.learn s).map fun _ _ => trivial
  | .name x => (Confines.name scopes x).map fun _ _ => trivial
  | .list items => (confines_resolveExprs scopes items).map fun _ _ => trivial
  | .tuple items => (confines_resolveExprs scopes items).map fun _ _ => trivial
  | .dict entries => (confines_resolveEntries scopes entries).map fun _ _ => trivial
  | .index object index => (object.confines_resolve scopes).bind fun _ _ =>
    (index.confines_resolve scopes).map fun _ _ => trivial
  | .attr object attr => (object.confines_resolve scopes).bind fun _ _ =>
    (Confines.learn attr).map fun _ _ => trivial
  | .call callee args => (callee.confines_resolve scopes).bind fun _ _ =>
    (confines_resolveArgs scopes false args).map fun _ _ => trivial
  | .binary left _ right => (left.confines_resolve scopes).bind fun _ _ =>
    (right.confines_resolve scopes).map fun _ _ => trivial
  | .compare left _ right => (left.confines_resolve scopes).bind fun _ _ =>
    (right.confines_resolve scopes).map fun _ _ => trivial
  | .not operand => (operand.confines_resolve scopes).map fun _ _ => trivial
  | .neg operand => (operand.confines_resolve scopes).map fun _ _ => trivial
  | .and left right => (left.confines_resolve scopes).bind fun _ _ =>
    (right.confines_resolve scopes).map fun _ _ => trivial
  | .or left right => (left.confines_resolve scopes).bind fun _ _ =>
    (right.confines_resolve scopes).map fun _ _ => trivial
  | .cond test body orelse => (test.confines_resolve scopes).bind fun _ _ =>
    (body.confines_resolve scopes).bind fun _ _ => (orelse.confines_resolve scopes).map fun _ _ => trivial
  | .lambda params body =>
    (Confines.definition (confines_resolveDefaults scopes params) fun bound =>
      (body.confines_resolve (bound :: scopes)).map fun _ _ => trivial).map fun _ _ => trivial

theorem confines_resolveExprs (scopes : Scopes) : (es : List Expr) →
    Confines (resolveExprs scopes es) fun _ => True
  | [] => .pure trivial
  | e :: es => (e.confines_resolve scopes).bind fun _ _ =>
    (confines_resolveExprs scopes es).map fun _ _ => trivial

theorem confines_resolveEntries (scopes : Scopes) : (es : List (Expr × Expr)) →
    Confines (resolveEntries scopes es) fun _ => True
  | [] => .pure trivial
  | (k, v) :: es => (k.confines_resolve scopes).bind fun _ _ => (v.confines_resolve scopes).bind fun _ _ =>
    (confines_resolveEntries scopes es).map fun _ _ => trivial

theorem confines_resolveArgs (scopes : Scopes) (keywordSeen : Bool) : (args : List Arg) →
    Confines (resolveArgs scopes keywordSeen args) fun _ => True
  | [] => .pure trivial
  | .positional value :: args => by
    rw [resolveArgs]
    cases keywordSeen with
    | true => exact .throw _
    | false =>
      exact (value.confines_resolve scopes).bind fun _ _ =>
        (confines_resolveArgs scopes false args).map fun _ _ => trivial
  | .keyword x value :: args => (Confines.learn x).bind fun _ _ => (value.confines_resolve scopes).bind fun _ _ =>
    (confines_resolveArgs scopes true args).map fun _ _ => trivial
  | .spread value :: args => (value.confines_resolve scopes).bind fun _ _ =>
    (confines_resolveArgs scopes keywordSeen args).map fun _ _ => trivial
  | .spreadKeywords value :: args => (value.confines_resolve scopes).bind fun _ _ =>
    (confines_resolveArgs scopes true args).map fun _ _ => trivial

theorem confines_resolveDefaults (scopes : Scopes) : (params : List Param) →
    Confines (resolveDefaults scopes params) fun _ => True
  | [] => .pure trivial
  | .defaulted _ value :: params => (value.confines_resolve scopes).bind fun _ _ =>
    (confines_resolveDefaults scopes params).map fun _ _ => trivial
  | .required _ :: params => confines_resolveDefaults scopes params
  | .rest _ :: params => confines_resolveDefaults scopes params
  | .bareStar :: params => confines_resolveDefaults scopes params
  | .keywords _ :: params => confines_resolveDefaults scopes params

end

mutual

theorem Target.confines_resolve (scopes : Scopes) : (t : Target) → Confines (t.resolve scopes) fun _ => True
  | .name x => (Confines.name scopes x).map fun _ _ => trivial
  | .index object index => (object.confines_resolve scopes).bind fun _ _ =>
    (index.confines_resolve scopes).map fun _ _ => trivial
  | .tuple targets => (confines_resolveTargets scopes targets).map fun _ _ => trivial

theorem confines_resolveTargets (scopes : Scopes) : (ts : List Target) →
    Confines (resolveTargets scopes ts) fun _ => True
  | [] => .pure trivial
  | t :: ts => (t.confines_resolve scopes).bind fun _ _ =>
    (confines_resolveTargets scopes ts).map fun _ _ => trivial

end

mutual

theorem Stmt.confines_resolve (scopes : Scopes) (inLoop : Bool) : (s : Stmt) →
    Confines (s.resolve scopes inLoop) (·.Confined inLoop !scopes.isEmpty)
  | .expr e => (e.confines_resolve scopes).map fun _ _ => trivial
  | .assign target value => (value.confines_resolve scopes).bind fun _ _ =>
    (target.confines_resolve scopes).map fun _ _ => trivial
  | .augment (.tuple _) _ _ => .throw _
  | .augment (.name x) _ value => (value.confines_resolve scopes).bind fun _ _ =>
    ((Target.name x).confines_resolve scopes).map fun _ _ => trivial
  | .augment (.index object index) _ value => (value.confines_resolve scopes).bind fun _ _ =>
    ((Target.index object index).confines_resolve scopes).map fun _ _ => trivial
  | .branch test body orelse => (test.confines_resolve scopes).bind fun _ _ =>
    (confines_resolveBlock scopes inLoop body).bind fun _ first =>
      (confines_resolveBlock scopes inLoop orelse).map fun _ second => ⟨first, second⟩
  | .loop target iter body => (iter.confines_resolve scopes).bind fun _ _ =>
    (target.confines_resolve scopes).bind fun _ _ => (confines_resolveBlock scopes true body).map fun _ inner => inner
  | .leaveLoop => by
    rw [Stmt.resolve]
    cases inLoop with
    | true => exact .pure rfl
    | false => exact .throw _
  | .nextRound => by
    rw [Stmt.resolve]
    cases inLoop with
    | true => exact .pure rfl
    | false => exact .throw _
  | .pass => .pure trivial
  | .giveBack value => by
    unfold Stmt.resolve
    cases scopes with
    | nil => exact .throw _
    | cons bound scopes =>
      cases value with
      | none => exact .pure rfl
      | some e => exact (e.confines_resolve (bound :: scopes)).map fun _ _ => rfl
  | .define function params body =>
    (Confines.definition (confines_resolveDefaults scopes params) fun bound =>
      (confines_resolveBlock (bound :: scopes) false body).map (f := Code.Body.block) fun _ inner => inner).bind fun _ _ =>
        (Confines.name scopes function).map fun _ _ => trivial

theorem confines_resolveBlock (scopes : Scopes) (inLoop : Bool) : (ss : List Stmt) →
    Confines (resolveBlock scopes inLoop ss) (BlockConfined inLoop !scopes.isEmpty)
  | [] => .pure trivial
  | s :: ss => (s.confines_resolve scopes inLoop).bind fun _ first =>
    (confines_resolveBlock scopes inLoop ss).map fun _ rest => ⟨first, rest⟩

end

end Program

namespace Code.Draft

variable {α : Type} {d : Draft}

/-- An attempt keeps the functions confined, whether or not it is refused. -/
theorem Confined.attempt (h : d.Confined) {step : Resolving α} {R : α → Prop} (hs : step.Confines R)
    (grows : step.Grows) : (d.attempt step).2.Confined ∧ ∀ a, (d.attempt step).1 = .ok a → R a := by
  cases ran : step d with
  | ok a d' =>
    obtain ⟨kept, ha⟩ := hs h ran
    rw [attempt_of_ok ran]
    refine ⟨kept, fun b hb => ?_⟩
    cases hb
    exact ha
  | error e d' =>
    rw [(attempt_of_error grows ran).2]
    refine ⟨h, fun b hb => ?_⟩
    cases hb

theorem Confined.resolveProgram (h : d.Confined) (program : List Program.Stmt) :
    (d.resolveProgram program).2.Confined ∧
      ∀ code, (d.resolveProgram program).1 = .ok code → BlockConfined false false code :=
  h.attempt (Program.confines_resolveBlock [] false program) (Program.grows_resolveBlock [] false program)

theorem Confined.resolveExpr (h : d.Confined) (e : Program.Expr) : (d.resolveExpr e).2.Confined :=
  (h.attempt (e.confines_resolve []) (e.grows_resolve [])).1

end Code.Draft

end Scriptlet
