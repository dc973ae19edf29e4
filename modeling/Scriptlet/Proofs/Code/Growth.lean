import Scriptlet.Code.Resolve

/-!
# Resolution only adds

Whether a step of resolution goes on or refuses the program, it takes nothing back: words come after the words that
were known, and functions go to the end of the table, also those of nested definitions whose enclosing definition is
refused later. So cutting the table off where it ended before takes back exactly what a refused program has added.
-/

namespace Scriptlet

open Fault (Malformed)

namespace Code

/-- The second draft continues the first one. -/
structure Draft.Le (d d' : Draft) : Prop where
  words : d.lexicon.words <+: d'.lexicon.words
  functions : d.functions.toList <+: d'.functions.toList

theorem Draft.Le.refl (d : Draft) : d.Le d := ⟨List.prefix_refl _, List.prefix_refl _⟩

theorem Draft.Le.trans {d d' d'' : Draft} (h : d.Le d') (h' : d'.Le d'') : d.Le d'' :=
  ⟨h.words.trans h'.words, h.functions.trans h'.functions⟩

/-- A table that was continued is cut back to what it was. -/
theorem Draft.Le.shrink_functions {d d' : Draft} (h : d.Le d') :
    d'.functions.shrink d.functions.size = d.functions := by
  apply Array.toList_inj.1
  rw [Array.toList_shrink, ← Array.length_toList]
  exact (List.prefix_iff_eq_take.1 h.functions).symm

/-! ## Steps of resolution -/

namespace Resolving

variable {α β : Type}

/-- The draft that a step leaves, also if it refuses the program. -/
def leaves (step : Resolving α) (d : Draft) : Draft :=
  match step d with
  | .ok _ d' => d'
  | .error _ d' => d'

/-- A step only adds to the draft, whether or not it refuses the program. -/
def Grows (step : Resolving α) : Prop := ∀ d : Draft, d.Le (step.leaves d)

namespace Grows

variable {x : Resolving α}

theorem pure (a : α) : Grows (Pure.pure a) := fun d => .refl d

theorem throw (e : Malformed) : Grows (MonadExcept.throw e : Resolving α) := fun d => .refl d

theorem bind {f : α → Resolving β} (hx : Grows x) (hf : ∀ a, Grows (f a)) : Grows (x >>= f) := by
  intro d
  have first := hx d
  simp only [leaves, Bind.bind, EStateM.bind] at first ⊢
  cases ran : x d with
  | error e d₁ =>
    rw [ran] at first
    exact first
  | ok a d₁ =>
    rw [ran] at first
    exact first.trans (hf a d₁)

/-- A step whose result is passed on. -/
theorem map {f : α → β} (hx : Grows x) : Grows (x >>= fun a => Pure.pure (f a)) :=
  hx.bind fun a => pure (f a)

theorem learn (w : String) : Grows (Resolving.learn w) :=
  fun d => ⟨d.lexicon.prefix_learn w, List.prefix_refl _⟩

theorem learnAll (ws : List String) : Grows (Resolving.learnAll ws) := by
  induction ws with
  | nil => exact pure ()
  | cons w ws ih => exact (learn w).bind fun _ => ih

theorem addFunction (f : Function) : Grows (Resolving.addFunction f) := by
  intro d
  refine ⟨List.prefix_refl _, ?_⟩
  show d.functions.toList <+: (d.functions.push f).toList
  rw [Array.toList_push]
  exact List.prefix_append _ _

theorem name (scopes : Scopes) (x : String) : Grows (Resolving.name scopes x) := by
  refine (learn x).bind fun _ => ?_
  split
  · exact pure _
  · exact pure _
  · split
    · exact throw _
    · exact pure _

theorem definition {scopes : Scopes} {function : String} {params : List Program.Param} {assigned : List String}
    {defaults : Resolving (List Expr)} {body : Scopes → Resolving Body} (hd : Grows defaults)
    (hb : ∀ bound, Grows (body (bound :: scopes))) :
    Grows (Resolving.definition scopes function params assigned defaults body) := by
  unfold Resolving.definition
  refine (learn function).bind fun _ => ?_
  cases ParamGroups.ofParams function params with
  | error e => exact throw e
  | ok groups =>
    simp only [MonadExcept.ofExcept, pure_bind]
    exact hd.bind fun _ => (learnAll _).bind fun _ => (hb _).bind fun _ => (addFunction _).map

end Grows

end Resolving

end Code

/-! ## Programs -/

namespace Program

open Code (Scopes)
open Code.Resolving (Grows)

mutual

theorem Expr.grows_resolve (scopes : Scopes) : (e : Expr) → Grows (e.resolve scopes)
  | .none => .pure _
  | .bool _ => .pure _
  | .int _ => .pure _
  | .str s => (Grows.learn s).map
  | .name x => (Grows.name scopes x).map
  | .list items => (grows_resolveExprs scopes items).map
  | .tuple items => (grows_resolveExprs scopes items).map
  | .dict entries => (grows_resolveEntries scopes entries).map
  | .index object index => (object.grows_resolve scopes).bind fun _ => (index.grows_resolve scopes).map
  | .attr object attr => (object.grows_resolve scopes).bind fun _ => (Grows.learn attr).map
  | .call callee args => (callee.grows_resolve scopes).bind fun _ => (grows_resolveArgs scopes false args).map
  | .binary left _ right => (left.grows_resolve scopes).bind fun _ => (right.grows_resolve scopes).map
  | .compare left _ right => (left.grows_resolve scopes).bind fun _ => (right.grows_resolve scopes).map
  | .not operand => (operand.grows_resolve scopes).map
  | .neg operand => (operand.grows_resolve scopes).map
  | .and left right => (left.grows_resolve scopes).bind fun _ => (right.grows_resolve scopes).map
  | .or left right => (left.grows_resolve scopes).bind fun _ => (right.grows_resolve scopes).map
  | .cond test body orelse => (test.grows_resolve scopes).bind fun _ =>
    (body.grows_resolve scopes).bind fun _ => (orelse.grows_resolve scopes).map
  | .lambda params body =>
    (Grows.definition (grows_resolveDefaults scopes params) fun bound =>
      (body.grows_resolve (bound :: scopes)).map).map

theorem grows_resolveExprs (scopes : Scopes) : (es : List Expr) → Grows (resolveExprs scopes es)
  | [] => .pure _
  | e :: es => (e.grows_resolve scopes).bind fun _ => (grows_resolveExprs scopes es).map

theorem grows_resolveEntries (scopes : Scopes) : (es : List (Expr × Expr)) → Grows (resolveEntries scopes es)
  | [] => .pure _
  | (k, v) :: es => (k.grows_resolve scopes).bind fun _ => (v.grows_resolve scopes).bind fun _ =>
    (grows_resolveEntries scopes es).map

theorem grows_resolveArgs (scopes : Scopes) (keywordSeen : Bool) : (args : List Arg) →
    Grows (resolveArgs scopes keywordSeen args)
  | [] => .pure _
  | .positional value :: args => by
    rw [resolveArgs]
    cases keywordSeen with
    | true => exact .throw _
    | false => exact (value.grows_resolve scopes).bind fun _ => (grows_resolveArgs scopes false args).map
  | .keyword x value :: args => (Grows.learn x).bind fun _ => (value.grows_resolve scopes).bind fun _ =>
    (grows_resolveArgs scopes true args).map
  | .spread value :: args => (value.grows_resolve scopes).bind fun _ =>
    (grows_resolveArgs scopes keywordSeen args).map
  | .spreadKeywords value :: args => (value.grows_resolve scopes).bind fun _ =>
    (grows_resolveArgs scopes true args).map

theorem grows_resolveDefaults (scopes : Scopes) : (params : List Param) → Grows (resolveDefaults scopes params)
  | [] => .pure _
  | .defaulted _ value :: params => (value.grows_resolve scopes).bind fun _ =>
    (grows_resolveDefaults scopes params).map
  | .required _ :: params => grows_resolveDefaults scopes params
  | .rest _ :: params => grows_resolveDefaults scopes params
  | .bareStar :: params => grows_resolveDefaults scopes params
  | .keywords _ :: params => grows_resolveDefaults scopes params

end

mutual

theorem Target.grows_resolve (scopes : Scopes) : (t : Target) → Grows (t.resolve scopes)
  | .name x => (Grows.name scopes x).map
  | .index object index => (object.grows_resolve scopes).bind fun _ => (index.grows_resolve scopes).map
  | .tuple targets => (grows_resolveTargets scopes targets).map

theorem grows_resolveTargets (scopes : Scopes) : (ts : List Target) → Grows (resolveTargets scopes ts)
  | [] => .pure _
  | t :: ts => (t.grows_resolve scopes).bind fun _ => (grows_resolveTargets scopes ts).map

end

mutual

theorem Stmt.grows_resolve (scopes : Scopes) (inLoop : Bool) : (s : Stmt) → Grows (s.resolve scopes inLoop)
  | .expr e => (e.grows_resolve scopes).map
  | .assign target value => (value.grows_resolve scopes).bind fun _ => (target.grows_resolve scopes).map
  | .augment (.tuple _) _ _ => .throw _
  | .augment (.name x) _ value => (value.grows_resolve scopes).bind fun _ =>
    ((Target.name x).grows_resolve scopes).map
  | .augment (.index object index) _ value => (value.grows_resolve scopes).bind fun _ =>
    ((Target.index object index).grows_resolve scopes).map
  | .branch test body orelse => (test.grows_resolve scopes).bind fun _ =>
    (grows_resolveBlock scopes inLoop body).bind fun _ => (grows_resolveBlock scopes inLoop orelse).map
  | .loop target iter body => (iter.grows_resolve scopes).bind fun _ =>
    (target.grows_resolve scopes).bind fun _ => (grows_resolveBlock scopes true body).map
  | .leaveLoop => by
    rw [Stmt.resolve]
    cases inLoop with
    | true => exact .pure _
    | false => exact .throw _
  | .nextRound => by
    rw [Stmt.resolve]
    cases inLoop with
    | true => exact .pure _
    | false => exact .throw _
  | .pass => .pure _
  | .giveBack value => by
    unfold Stmt.resolve
    cases scopes with
    | nil => exact .throw _
    | cons bound scopes =>
      cases value with
      | none => exact .pure _
      | some e => exact (e.grows_resolve (bound :: scopes)).map
  | .define function params body =>
    (Grows.definition (grows_resolveDefaults scopes params) fun bound =>
      (grows_resolveBlock (bound :: scopes) false body).map (f := Code.Body.block)).bind fun _ =>
        (Grows.name scopes function).map

theorem grows_resolveBlock (scopes : Scopes) (inLoop : Bool) : (ss : List Stmt) →
    Grows (resolveBlock scopes inLoop ss)
  | [] => .pure _
  | s :: ss => (s.grows_resolve scopes inLoop).bind fun _ => (grows_resolveBlock scopes inLoop ss).map

end

end Program

/-! ## Resolution at module level -/

namespace Code.Draft

variable {α : Type} {d d' : Draft} {step : Resolving α}

theorem attempt_of_ok {a : α} (h : step d = .ok a d') : d.attempt step = (.ok a, d') := by
  simp only [attempt, h]

theorem attempt_eq_ok {a : α} (h : d.attempt step = (.ok a, d')) : step d = .ok a d' := by
  cases ran : step d with
  | ok b d₁ =>
    rw [attempt_of_ok ran] at h
    cases h
    rfl
  | error e d₁ =>
    simp only [attempt, ran] at h
    cases h

/-- A step that refuses the program leaves the table as it was, and the words that it met. -/
theorem attempt_of_error (grows : step.Grows) {e : Malformed} (h : step d = .error e d') :
    d.Le d' ∧ d.attempt step = (.error e, { d' with functions := d.functions }) := by
  have le : d.Le d' := by
    have left := grows d
    simp only [Resolving.leaves, h] at left
    exact left
  refine ⟨le, ?_⟩
  simp only [attempt, h, le.shrink_functions]

end Code.Draft

end Scriptlet
