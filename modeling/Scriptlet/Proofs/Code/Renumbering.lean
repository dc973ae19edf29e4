import Scriptlet.Machine.Stmt
import Scriptlet.Proofs.Code.Needs

/-!
# Renumbered functions

Code refers to functions by their places in a table. The same code can refer to another table that holds the same
functions at other places. To run renumbered code is to run the code itself and look its functions up at their
other places.
-/

namespace Scriptlet

/-- New places for the functions of a table. -/
abbrev Renumbering := FunctionId → FunctionId

namespace Code

/-! ## Trees -/

mutual

/-- The expression that finds its functions at the new places. -/
def Expr.renumber (ρ : Renumbering) : Expr → Expr
  | .literal l => .literal l
  | .name x => .name x
  | .list items => .list (renumberExprs ρ items)
  | .tuple items => .tuple (renumberExprs ρ items)
  | .dict entries => .dict (renumberEntries ρ entries)
  | .index object index => .index (object.renumber ρ) (index.renumber ρ)
  | .attr object attr => .attr (object.renumber ρ) attr
  | .call callee args => .call (callee.renumber ρ) (renumberArgs ρ args)
  | .binary left op right => .binary (left.renumber ρ) op (right.renumber ρ)
  | .compare left op right => .compare (left.renumber ρ) op (right.renumber ρ)
  | .not operand => .not (operand.renumber ρ)
  | .neg operand => .neg (operand.renumber ρ)
  | .and left right => .and (left.renumber ρ) (right.renumber ρ)
  | .or left right => .or (left.renumber ρ) (right.renumber ρ)
  | .cond test body orelse => .cond (test.renumber ρ) (body.renumber ρ) (orelse.renumber ρ)
  | .function id defaults => .function (ρ id) (renumberExprs ρ defaults)

def renumberExprs (ρ : Renumbering) : List Expr → List Expr
  | [] => []
  | e :: es => e.renumber ρ :: renumberExprs ρ es

def renumberEntries (ρ : Renumbering) : List (Expr × Expr) → List (Expr × Expr)
  | [] => []
  | (k, v) :: es => (k.renumber ρ, v.renumber ρ) :: renumberEntries ρ es

def renumberArgs (ρ : Renumbering) : List Arg → List Arg
  | [] => []
  | .positional e :: args => .positional (e.renumber ρ) :: renumberArgs ρ args
  | .keyword x e :: args => .keyword x (e.renumber ρ) :: renumberArgs ρ args
  | .spread e :: args => .spread (e.renumber ρ) :: renumberArgs ρ args
  | .spreadKeywords e :: args => .spreadKeywords (e.renumber ρ) :: renumberArgs ρ args

end

mutual

def Target.renumber (ρ : Renumbering) : Target → Target
  | .name x => .name x
  | .index object index => .index (object.renumber ρ) (index.renumber ρ)
  | .tuple targets => .tuple (renumberTargets ρ targets)

def renumberTargets (ρ : Renumbering) : List Target → List Target
  | [] => []
  | t :: ts => t.renumber ρ :: renumberTargets ρ ts

end

mutual

def Stmt.renumber (ρ : Renumbering) : Stmt → Stmt
  | .expr e => .expr (e.renumber ρ)
  | .assign target e => .assign (target.renumber ρ) (e.renumber ρ)
  | .augment target op e => .augment (target.renumber ρ) op (e.renumber ρ)
  | .branch test body orelse => .branch (test.renumber ρ) (renumberBlock ρ body) (renumberBlock ρ orelse)
  | .loop target iter body => .loop (target.renumber ρ) (iter.renumber ρ) (renumberBlock ρ body)
  | .leaveLoop => .leaveLoop
  | .nextRound => .nextRound
  | .pass => .pass
  | .giveBack none => .giveBack none
  | .giveBack (some e) => .giveBack (some (e.renumber ρ))
  | .define x id defaults => .define x (ρ id) (renumberExprs ρ defaults)

def renumberBlock (ρ : Renumbering) : List Stmt → List Stmt
  | [] => []
  | s :: ss => s.renumber ρ :: renumberBlock ρ ss

end

def Body.renumber (ρ : Renumbering) : Body → Body
  | .expr e => .expr (e.renumber ρ)
  | .block ss => .block (renumberBlock ρ ss)

/-- The function whose body finds its functions at the new places. -/
def Function.renumber (ρ : Renumbering) (f : Function) : Function :=
  { f with body := f.body.renumber ρ }

/-! ## Code that stays the same -/

/-- All functions that code with some needs refers to stay where they are. -/
def Fixes (ρ : Renumbering) (needs : List Need) : Prop := ∀ id n, .make id n ∈ needs → ρ id = id

/-- Code that is put together refers to what its parts refer to. -/
theorem fixes_append {ρ : Renumbering} {as bs : List Need} : Fixes ρ (as ++ bs) ↔ Fixes ρ as ∧ Fixes ρ bs := by
  simp only [Fixes, List.mem_append]
  exact ⟨fun h => ⟨fun id n hn => h id n (.inl hn), fun id n hn => h id n (.inr hn)⟩,
    fun h id n hn => hn.elim (h.1 id n) (h.2 id n)⟩

theorem fixes_cons {ρ : Renumbering} {a : Need} {as : List Need} (h : Fixes ρ (a :: as)) : Fixes ρ as :=
  fun id n hn => h id n (List.mem_cons_of_mem _ hn)

section fixed

variable {ρ : Renumbering}

mutual

/-- Code stays the same if all functions that it refers to stay where they are: for each kind of tree, by its needs. -/
theorem Expr.renumber_eq : (e : Expr) → Fixes ρ e.needs → e.renumber ρ = e
  | .literal _, _ => rfl
  | .name _, _ => rfl
  | .list items, h => by rw [Expr.renumber, renumberExprs_eq items h]
  | .tuple items, h => by rw [Expr.renumber, renumberExprs_eq items h]
  | .dict entries, h => by rw [Expr.renumber, renumberEntries_eq entries h]
  | .index object index, h => by
    rw [Expr.needs, fixes_append] at h
    rw [Expr.renumber, object.renumber_eq h.1, index.renumber_eq h.2]
  | .attr object _, h => by rw [Expr.renumber, object.renumber_eq (fixes_cons h)]
  | .call callee args, h => by
    rw [Expr.needs, fixes_append] at h
    rw [Expr.renumber, callee.renumber_eq h.1, renumberArgs_eq args h.2]
  | .binary left _ right, h => by
    rw [Expr.needs, fixes_append] at h
    rw [Expr.renumber, left.renumber_eq h.1, right.renumber_eq h.2]
  | .compare left _ right, h => by
    rw [Expr.needs, fixes_append] at h
    rw [Expr.renumber, left.renumber_eq h.1, right.renumber_eq h.2]
  | .not operand, h => by rw [Expr.renumber, operand.renumber_eq h]
  | .neg operand, h => by rw [Expr.renumber, operand.renumber_eq h]
  | .and left right, h => by
    rw [Expr.needs, fixes_append] at h
    rw [Expr.renumber, left.renumber_eq h.1, right.renumber_eq h.2]
  | .or left right, h => by
    rw [Expr.needs, fixes_append] at h
    rw [Expr.renumber, left.renumber_eq h.1, right.renumber_eq h.2]
  | .cond test body orelse, h => by
    rw [Expr.needs, fixes_append, fixes_append] at h
    rw [Expr.renumber, test.renumber_eq h.1.1, body.renumber_eq h.1.2, orelse.renumber_eq h.2]
  | .function id defaults, h => by
    rw [Expr.renumber, h id _ List.mem_cons_self, renumberExprs_eq defaults (fixes_cons h)]

theorem renumberExprs_eq : (es : List Expr) → Fixes ρ (exprsNeeds es) → renumberExprs ρ es = es
  | [], _ => rfl
  | e :: es, h => by
    rw [exprsNeeds, fixes_append] at h
    rw [renumberExprs, e.renumber_eq h.1, renumberExprs_eq es h.2]

theorem renumberEntries_eq : (es : List (Expr × Expr)) → Fixes ρ (entriesNeeds es) →
    renumberEntries ρ es = es
  | [], _ => rfl
  | (k, v) :: es, h => by
    rw [entriesNeeds, fixes_append, fixes_append] at h
    rw [renumberEntries, k.renumber_eq h.1.1, v.renumber_eq h.1.2, renumberEntries_eq es h.2]

theorem renumberArgs_eq : (args : List Arg) → Fixes ρ (argsNeeds args) → renumberArgs ρ args = args
  | [], _ => rfl
  | .positional e :: args, h => by
    rw [argsNeeds, fixes_append] at h
    rw [renumberArgs, e.renumber_eq h.1, renumberArgs_eq args h.2]
  | .keyword _ e :: args, h => by
    rw [argsNeeds] at h
    have h := fixes_append.1 (fixes_cons h)
    rw [renumberArgs, e.renumber_eq h.1, renumberArgs_eq args h.2]
  | .spread e :: args, h => by
    rw [argsNeeds, fixes_append] at h
    rw [renumberArgs, e.renumber_eq h.1, renumberArgs_eq args h.2]
  | .spreadKeywords e :: args, h => by
    rw [argsNeeds, fixes_append] at h
    rw [renumberArgs, e.renumber_eq h.1, renumberArgs_eq args h.2]

end

mutual

theorem Target.renumber_eq : (t : Target) → Fixes ρ t.needs → t.renumber ρ = t
  | .name _, _ => rfl
  | .index object index, h => by
    rw [Target.needs, fixes_append] at h
    rw [Target.renumber, object.renumber_eq h.1, index.renumber_eq h.2]
  | .tuple targets, h => by rw [Target.renumber, renumberTargets_eq targets h]

theorem renumberTargets_eq : (ts : List Target) → Fixes ρ (targetsNeeds ts) → renumberTargets ρ ts = ts
  | [], _ => rfl
  | t :: ts, h => by
    rw [targetsNeeds, fixes_append] at h
    rw [renumberTargets, t.renumber_eq h.1, renumberTargets_eq ts h.2]

end

mutual

/-- A statement stays the same for the same reason as its expressions. -/
theorem Stmt.renumber_eq : (s : Stmt) → Fixes ρ s.needs → s.renumber ρ = s
  | .expr e, h => by rw [Stmt.renumber, e.renumber_eq h]
  | .assign target e, h => by
    rw [Stmt.needs, fixes_append] at h
    rw [Stmt.renumber, target.renumber_eq h.1, e.renumber_eq h.2]
  | .augment target _ e, h => by
    rw [Stmt.needs, fixes_append, fixes_append] at h
    rw [Stmt.renumber, target.renumber_eq h.1.2, e.renumber_eq h.2]
  | .branch test body orelse, h => by
    rw [Stmt.needs, fixes_append, fixes_append] at h
    rw [Stmt.renumber, test.renumber_eq h.1.1, renumberBlock_eq body h.1.2, renumberBlock_eq orelse h.2]
  | .loop target iter body, h => by
    rw [Stmt.needs, fixes_append, fixes_append] at h
    rw [Stmt.renumber, target.renumber_eq h.1.1, iter.renumber_eq h.1.2, renumberBlock_eq body h.2]
  | .leaveLoop, _ => rfl
  | .nextRound, _ => rfl
  | .pass, _ => rfl
  | .giveBack none, _ => rfl
  | .giveBack (some e), h => by rw [Stmt.renumber, e.renumber_eq h]
  | .define _ id defaults, h => by
    rw [Stmt.needs] at h
    have h := fixes_cons h
    rw [Stmt.renumber, h id _ List.mem_cons_self, renumberExprs_eq defaults (fixes_cons h)]

theorem renumberBlock_eq : (ss : List Stmt) → Fixes ρ (blockNeeds ss) → renumberBlock ρ ss = ss
  | [], _ => rfl
  | s :: ss, h => by
    rw [blockNeeds, fixes_append] at h
    rw [renumberBlock, s.renumber_eq h.1, renumberBlock_eq ss h.2]

end

/-- A function stays the same if all functions that its body refers to stay where they are. -/
theorem Function.renumber_eq {f : Function} (h : Fixes ρ f.body.needs) : f.renumber ρ = f := by
  obtain ⟨name, signature, body, nested⟩ := f
  cases body with
  | expr e => rw [Function.renumber, Body.renumber, e.renumber_eq h]
  | block ss => rw [Function.renumber, Body.renumber, renumberBlock_eq ss h]

end fixed

end Code

/-! ## Evaluation -/

namespace Engine

open Code (Arg Expr Stmt Target)

variable {σ : Type}

/-- The engine that makes functions at their new places. -/
def relabel (k : Engine σ) (ρ : Renumbering) : Engine σ :=
  { k with function := fun id => k.function (ρ id) }

variable (k : Engine σ) (ρ : Renumbering)

mutual

/-- Renumbered code differs only where functions are made, so another engine that makes them at the new places does the
same with the code itself. -/
theorem eval_renumber : (e : Expr) → k.eval (e.renumber ρ) = (k.relabel ρ).eval e
  | .literal _ => rfl
  | .name _ => rfl
  | .list items => by rw [Expr.renumber, eval, eval, evalAll_renumber items]; rfl
  | .tuple items => by rw [Expr.renumber, eval, eval, evalAll_renumber items]; rfl
  | .dict entries => by rw [Expr.renumber, eval, eval, evalEntries_renumber entries]; rfl
  | .index object index => by
    rw [Expr.renumber, eval, eval, eval_renumber object, eval_renumber index]
    rfl
  | .attr object attr => by rw [Expr.renumber, eval, eval, eval_renumber object]; rfl
  | .call callee args => by
    rw [Expr.renumber, eval, eval, eval_renumber callee, evalArgs_renumber args]
    rfl
  | .binary left op right => by
    rw [Expr.renumber, eval, eval, eval_renumber left, eval_renumber right]
    rfl
  | .compare left op right => by
    rw [Expr.renumber, eval, eval, eval_renumber left, eval_renumber right]
    rfl
  | .not operand => by rw [Expr.renumber, eval, eval, eval_renumber operand]; rfl
  | .neg operand => by rw [Expr.renumber, eval, eval, eval_renumber operand]; rfl
  | .and left right => by
    rw [Expr.renumber, eval, eval, eval_renumber left, eval_renumber right]
    rfl
  | .or left right => by
    rw [Expr.renumber, eval, eval, eval_renumber left, eval_renumber right]
    rfl
  | .cond test body orelse => by
    rw [Expr.renumber, eval, eval, eval_renumber test, eval_renumber body, eval_renumber orelse]
    rfl
  | .function id defaults => by rw [Expr.renumber, eval, eval, evalAll_renumber defaults]; rfl

theorem evalAll_renumber : (es : List Expr) →
    k.evalAll (Code.renumberExprs ρ es) = (k.relabel ρ).evalAll es
  | [] => rfl
  | e :: es => by rw [Code.renumberExprs, evalAll, evalAll, eval_renumber e, evalAll_renumber es]

theorem evalEntries_renumber {entries : OrderedMap Key (Value × Value)} : (es : List (Expr × Expr)) →
    k.evalEntries entries (Code.renumberEntries ρ es) = (k.relabel ρ).evalEntries entries es
  | [] => rfl
  | (index, value) :: es => by
    rw [Code.renumberEntries, evalEntries, evalEntries, eval_renumber index, eval_renumber value]
    simp only [evalEntries_renumber es]
    rfl

theorem evalArgs_renumber : (args : List Arg) →
    k.evalArgs (Code.renumberArgs ρ args) = (k.relabel ρ).evalArgs args
  | [] => rfl
  | .positional e :: args => by
    rw [Code.renumberArgs, evalArgs, evalArgs, eval_renumber e, evalArgs_renumber args]
  | .keyword x e :: args => by
    rw [Code.renumberArgs, evalArgs, evalArgs, eval_renumber e, evalArgs_renumber args]
  | .spread e :: args => by
    rw [Code.renumberArgs, evalArgs, evalArgs, eval_renumber e, evalArgs_renumber args]
    rfl
  | .spreadKeywords e :: args => by
    rw [Code.renumberArgs, evalArgs, evalArgs, eval_renumber e, evalArgs_renumber args]
    rfl

end

mutual

theorem assign_renumber : (t : Target) → (v : Value) →
    k.assign (t.renumber ρ) v = (k.relabel ρ).assign t v
  | .name _, _ => rfl
  | .index object index, v => by
    rw [Target.renumber, assign, assign, eval_renumber k ρ object, eval_renumber k ρ index]
    rfl
  | .tuple targets, v => by
    have length : (Code.renumberTargets ρ targets).length = targets.length := length_renumberTargets targets
    rw [Target.renumber, assign, assign, length]
    simp only [assignAll_renumber targets]
    rfl

theorem assignAll_renumber : (ts : List Target) → (vs : List Value) →
    k.assignAll (Code.renumberTargets ρ ts) vs = (k.relabel ρ).assignAll ts vs
  | [], _ => rfl
  | _ :: _, [] => rfl
  | t :: ts, v :: vs => by
    rw [Code.renumberTargets, assignAll, assignAll, assign_renumber t, assignAll_renumber ts]

theorem length_renumberTargets : (ts : List Target) → (Code.renumberTargets ρ ts).length = ts.length
  | [] => rfl
  | t :: ts => by simp [Code.renumberTargets, length_renumberTargets ts]

end

theorem augmentTarget_renumber (t : Target) (op : Program.Operator) (e : Expr) :
    k.augmentTarget (t.renumber ρ) op (e.renumber ρ) = (k.relabel ρ).augmentTarget t op e := by
  cases t with
  | name x => simp only [Target.renumber, augmentTarget, eval_renumber]; rfl
  | index object index => simp only [Target.renumber, augmentTarget, eval_renumber]; rfl
  | tuple targets => rfl

/-- The kind of a statement, which the tracer is told, stays the same. -/
theorem kind_renumber (s : Stmt) : (s.renumber ρ).kind = s.kind := by
  cases s with
  | giveBack value => cases value <;> rfl
  | _ => rfl

mutual

/-- Statements differ only in the functions that they define. -/
theorem exec_renumber : (s : Stmt) → k.exec (s.renumber ρ) = (k.relabel ρ).exec s
  | .expr e => by rw [Stmt.renumber, exec, exec, eval_renumber]
  | .assign target e => by
    rw [Stmt.renumber, exec, exec, eval_renumber]
    simp only [assign_renumber]
  | .augment target op e => by rw [Stmt.renumber, exec, exec, augmentTarget_renumber]
  | .branch test body orelse => by
    rw [Stmt.renumber, exec, exec, eval_renumber, execBlock_renumber body, execBlock_renumber orelse]
    rfl
  | .loop target iter body => by
    rw [Stmt.renumber, exec, exec, eval_renumber, execBlock_renumber body]
    simp only [assign_renumber]
    rfl
  | .leaveLoop => rfl
  | .nextRound => rfl
  | .pass => rfl
  | .giveBack none => rfl
  | .giveBack (some e) => by rw [Stmt.renumber, exec, exec, eval_renumber]
  | .define x id defaults => by
    rw [Stmt.renumber, exec, exec, evalAll_renumber]
    rfl

theorem execBlock_renumber : (ss : List Stmt) →
    k.execBlock (Code.renumberBlock ρ ss) = (k.relabel ρ).execBlock ss
  | [] => rfl
  | s :: ss => by
    rw [Code.renumberBlock, execBlock, execBlock, exec_renumber s, execBlock_renumber ss, kind_renumber]
    rfl

end

/-- So a call of a renumbered function does what a call of the function does on the other engine. -/
theorem execBody_renumber (b : Code.Body) : k.execBody (b.renumber ρ) = (k.relabel ρ).execBody b := by
  cases b with
  | expr e => exact eval_renumber k ρ e
  | block ss => rw [Code.Body.renumber, execBody, execBody, execBlock_renumber]

end Engine

end Scriptlet
