import Scriptlet.Proofs.Code.Definitions
import Scriptlet.Proofs.Code.Growth
import Scriptlet.Proofs.Code.Renumbering

/-!
# Resolution from two tables

Two tables of functions may hold the same functions at different places, and the second one may hold others
besides. Resolution that starts from either of them accepts the same programs and refuses the others with the same
defect, whatever words it has met before, and the code that it gives differs only in the places of the functions.
-/

namespace Scriptlet

open Fault (Malformed)

namespace Code

/-- The second table holds the functions of the first one at their new places, and the functions that are added
next belong to each other. -/
structure Renumbered (ρ : Renumbering) (F F' : Array Function) : Prop where
  function : ∀ {id : FunctionId} {f : Function}, F[id.index]? = some f →
    F'[(ρ id).index]? = some (f.renumber ρ)
  next : ∀ k, ρ ⟨F.size + k⟩ = ⟨F'.size + k⟩

theorem Renumbered.push {ρ : Renumbering} {F F' : Array Function} (h : Renumbered ρ F F') (f : Function) :
    Renumbered ρ (F.push f) (F'.push (f.renumber ρ)) where
  function {id g} hg := by
    rw [Array.getElem?_push] at hg
    split at hg
    · rename_i last
      have new : ρ id = ⟨F'.size⟩ := by
        have := h.next 0
        rwa [Nat.add_zero, Nat.add_zero, ← last] at this
      cases hg
      rw [new, Array.getElem?_push, if_pos rfl]
    · have found := h.function hg
      have hlt := (Array.getElem?_eq_some_iff.1 found).1
      rw [Array.getElem?_push, if_neg (Nat.ne_of_lt hlt), found]
  next k := by
    have := h.next (1 + k)
    rwa [← Nat.add_assoc, ← Nat.add_assoc, ← Array.size_push f, ← Array.size_push (f.renumber ρ)] at this

/-- The functions of a table of size `n` keep their places in a table of size `n'`, and those that are added next
come after the others. -/
def shift (n n' : Nat) : Renumbering := fun id =>
  if id.index < n then id else ⟨id.index + (n' - n)⟩

theorem shift_of_lt {n n' : Nat} {id : FunctionId} (h : id.index < n) : shift n n' id = id := if_pos h

/-- A table goes on from another one, and the bodies of its functions make only functions of the table. -/
theorem renumbered_shift {F F' : Array Function} (h : Extends F F')
    (closed : ∀ {id : FunctionId} {f : Function}, F[id.index]? = some f →
      ∀ made n, .make made n ∈ f.body.needs → made.index < F.size) :
    Renumbered (shift F.size F'.size) F F' where
  function {id f} hf := by
    have hlt := (Array.getElem?_eq_some_iff.1 hf).1
    have fixed : Fixes (shift F.size F'.size) f.body.needs :=
      fun made n hn => shift_of_lt (closed hf made n hn)
    rw [shift_of_lt hlt, f.renumber_eq fixed]
    exact h hf
  next k := by
    have size := h.size_le
    have hk : ¬ F.size + k < F.size := by omega
    simp only [shift, hk, if_false, FunctionId.mk.injEq]
    omega

/-- Two steps of resolution have ended alike: with results that belong to each other and tables that hold the same
functions, or with the same defect. -/
inductive Parallel.Ends (ρ : Renumbering) {α β : Type} (R : α → β → Prop) :
    EStateM.Result Malformed Draft α → EStateM.Result Malformed Draft β → Prop where
  | ok {a : α} {b : β} {d d' : Draft} (tables : Renumbered ρ d.functions d'.functions) (h : R a b) :
    Ends ρ R (.ok a d) (.ok b d')
  | error (e : Malformed) (d d' : Draft) : Ends ρ R (.error e d) (.error e d')

/-- From all tables that hold the same functions, two steps of resolution end alike. -/
def Parallel (ρ : Renumbering) {α β : Type} (R : α → β → Prop) (x : Resolving α) (y : Resolving β) : Prop :=
  ∀ ⦃d d'⦄, Renumbered ρ d.functions d'.functions → Parallel.Ends ρ R (x d) (y d')

namespace Parallel

variable {ρ : Renumbering} {α β γ δ : Type} {R : α → β → Prop} {S : γ → δ → Prop}

theorem pure {a : α} {b : β} (h : R a b) : Parallel ρ R (Pure.pure a) (Pure.pure b) :=
  fun _ _ tables => .ok tables h

theorem throw (e : Malformed) : Parallel ρ R (MonadExcept.throw e) (MonadExcept.throw e) :=
  fun d d' _ => .error e d d'

theorem bind {x : Resolving α} {y : Resolving β} {f : α → Resolving γ} {g : β → Resolving δ}
    (h : Parallel ρ R x y) (hfg : ∀ a b, R a b → Parallel ρ S (f a) (g b)) : Parallel ρ S (x >>= f) (y >>= g) := by
  intro d d' tables
  have ends := h tables
  show Ends ρ S (EStateM.bind x f d) (EStateM.bind y g d')
  unfold EStateM.bind
  generalize x d = r at ends ⊢
  generalize y d' = r' at ends ⊢
  cases ends with
  | ok tables h => exact hfg _ _ h tables
  | error e d d' => exact .error e d d'

theorem learn (w : String) : Parallel ρ (fun _ _ => True) (Resolving.learn w) (Resolving.learn w) :=
  fun _ _ tables => .ok tables trivial

theorem learnAll (ws : List String) : Parallel ρ (fun _ _ => True) (Resolving.learnAll ws) (Resolving.learnAll ws) := by
  induction ws with
  | nil => exact .pure trivial
  | cons w ws ih => exact (learn w).bind fun _ _ _ => ih

theorem addFunction (f : Function) : Parallel ρ (fun id id' => id' = ρ id) (Resolving.addFunction f)
    (Resolving.addFunction (f.renumber ρ)) := by
  intro d d' tables
  have new := tables.next 0
  exact .ok (tables.push f) new.symm

theorem name (scopes : Scopes) (x : String) : Parallel ρ Eq (Resolving.name scopes x) (Resolving.name scopes x) := by
  refine (learn x).bind fun _ _ _ => ?_
  split
  · exact .pure rfl
  · exact .pure rfl
  · split
    · exact .throw _
    · exact .pure rfl

/-- A definition is resolved alike if its defaults and its body are. -/
theorem definition {scopes : Scopes} {name : String} {params : List Program.Param} {assigned : List String}
    {defaults : Resolving (List Expr)} {body : Scopes → Resolving Body}
    (hd : Parallel ρ (fun es es' => es' = renumberExprs ρ es) defaults defaults)
    (hb : ∀ inner, Parallel ρ (fun b b' => b' = Body.renumber ρ b) (body inner) (body inner)) :
    Parallel ρ (fun p p' => p' = (ρ p.1, renumberExprs ρ p.2))
      (Resolving.definition scopes name params assigned defaults body)
      (Resolving.definition scopes name params assigned defaults body) := by
  refine (learn name).bind fun _ _ _ => ?_
  cases ParamGroups.ofParams name params with
  | error e => exact .throw e
  | ok groups =>
    simp only [MonadExcept.ofExcept, pure_bind]
    refine hd.bind fun es es' hes => (learnAll _).bind fun _ _ _ => (hb _).bind fun b b' hbb' => ?_
    subst hes hbb'
    exact (addFunction { name, signature := .ofGroups groups, body := b, nested := !scopes.isEmpty }).bind
      fun id id' hid => .pure (by rw [hid])

end Parallel

end Code

namespace Program

open Code (Parallel Scopes)

variable {ρ : Renumbering}

mutual

theorem Expr.parallel_resolve (scopes : Scopes) : (e : Expr) →
    Parallel ρ (fun c c' => c' = Code.Expr.renumber ρ c) (e.resolve scopes) (e.resolve scopes)
  | .none => .pure rfl
  | .bool _ => .pure rfl
  | .int _ => .pure rfl
  | .str s => (Parallel.learn s).bind fun _ _ _ => .pure rfl
  | .name x => (Parallel.name scopes x).bind fun _ _ h => .pure (by rw [h]; rfl)
  | .list items => (parallel_resolveExprs scopes items).bind fun _ _ h => .pure (by rw [h]; rfl)
  | .tuple items => (parallel_resolveExprs scopes items).bind fun _ _ h => .pure (by rw [h]; rfl)
  | .dict entries => (parallel_resolveEntries scopes entries).bind fun _ _ h => .pure (by rw [h]; rfl)
  | .index object index => (object.parallel_resolve scopes).bind fun _ _ h =>
    (index.parallel_resolve scopes).bind fun _ _ h' => .pure (by rw [h, h']; rfl)
  | .attr object attr => (object.parallel_resolve scopes).bind fun _ _ h =>
    (Parallel.learn attr).bind fun _ _ _ => .pure (by rw [h]; rfl)
  | .call callee args => (callee.parallel_resolve scopes).bind fun _ _ h =>
    (parallel_resolveArgs scopes false args).bind fun _ _ h' => .pure (by rw [h, h']; rfl)
  | .binary left op right => (left.parallel_resolve scopes).bind fun _ _ h =>
    (right.parallel_resolve scopes).bind fun _ _ h' => .pure (by rw [h, h']; rfl)
  | .compare left op right => (left.parallel_resolve scopes).bind fun _ _ h =>
    (right.parallel_resolve scopes).bind fun _ _ h' => .pure (by rw [h, h']; rfl)
  | .not operand => (operand.parallel_resolve scopes).bind fun _ _ h => .pure (by rw [h]; rfl)
  | .neg operand => (operand.parallel_resolve scopes).bind fun _ _ h => .pure (by rw [h]; rfl)
  | .and left right => (left.parallel_resolve scopes).bind fun _ _ h =>
    (right.parallel_resolve scopes).bind fun _ _ h' => .pure (by rw [h, h']; rfl)
  | .or left right => (left.parallel_resolve scopes).bind fun _ _ h =>
    (right.parallel_resolve scopes).bind fun _ _ h' => .pure (by rw [h, h']; rfl)
  | .cond test body orelse => (test.parallel_resolve scopes).bind fun _ _ h =>
    (body.parallel_resolve scopes).bind fun _ _ h₁ => (orelse.parallel_resolve scopes).bind fun _ _ h₂ =>
      .pure (by rw [h, h₁, h₂]; rfl)
  | .lambda params body =>
    (Parallel.definition (parallel_resolveDefaults scopes params) fun inner =>
      (body.parallel_resolve inner).bind fun _ _ h => .pure (by rw [h]; rfl)).bind
        fun _ _ h => .pure (by rw [h]; rfl)

theorem parallel_resolveExprs (scopes : Scopes) : (es : List Expr) →
    Parallel ρ (fun cs cs' => cs' = Code.renumberExprs ρ cs) (resolveExprs scopes es)
      (resolveExprs scopes es)
  | [] => .pure rfl
  | e :: es => (e.parallel_resolve scopes).bind fun _ _ h =>
    (parallel_resolveExprs scopes es).bind fun _ _ h' => .pure (by rw [h, h']; rfl)

theorem parallel_resolveEntries (scopes : Scopes) : (es : List (Expr × Expr)) →
    Parallel ρ (fun cs cs' => cs' = Code.renumberEntries ρ cs) (resolveEntries scopes es)
      (resolveEntries scopes es)
  | [] => .pure rfl
  | (k, v) :: es => (k.parallel_resolve scopes).bind fun _ _ h =>
    (v.parallel_resolve scopes).bind fun _ _ h₁ => (parallel_resolveEntries scopes es).bind fun _ _ h₂ =>
      .pure (by rw [h, h₁, h₂]; rfl)

theorem parallel_resolveArgs (scopes : Scopes) (keywordSeen : Bool) : (args : List Arg) →
    Parallel ρ (fun cs cs' => cs' = Code.renumberArgs ρ cs) (resolveArgs scopes keywordSeen args)
      (resolveArgs scopes keywordSeen args)
  | [] => .pure rfl
  | .positional value :: args => by
    rw [resolveArgs]
    cases keywordSeen with
    | true => exact .throw _
    | false =>
      exact (value.parallel_resolve scopes).bind fun _ _ h =>
        (parallel_resolveArgs scopes _ args).bind fun _ _ h' => .pure (by rw [h, h']; rfl)
  | .keyword x value :: args => (Parallel.learn x).bind fun _ _ _ =>
    (value.parallel_resolve scopes).bind fun _ _ h =>
      (parallel_resolveArgs scopes _ args).bind fun _ _ h' => .pure (by rw [h, h']; rfl)
  | .spread value :: args => (value.parallel_resolve scopes).bind fun _ _ h =>
    (parallel_resolveArgs scopes _ args).bind fun _ _ h' => .pure (by rw [h, h']; rfl)
  | .spreadKeywords value :: args => (value.parallel_resolve scopes).bind fun _ _ h =>
    (parallel_resolveArgs scopes _ args).bind fun _ _ h' => .pure (by rw [h, h']; rfl)

theorem parallel_resolveDefaults (scopes : Scopes) : (params : List Param) →
    Parallel ρ (fun cs cs' => cs' = Code.renumberExprs ρ cs) (resolveDefaults scopes params)
      (resolveDefaults scopes params)
  | [] => .pure rfl
  | .defaulted _ value :: params => (value.parallel_resolve scopes).bind fun _ _ h =>
    (parallel_resolveDefaults scopes params).bind fun _ _ h' => .pure (by rw [h, h']; rfl)
  | .required _ :: params => parallel_resolveDefaults scopes params
  | .rest _ :: params => parallel_resolveDefaults scopes params
  | .bareStar :: params => parallel_resolveDefaults scopes params
  | .keywords _ :: params => parallel_resolveDefaults scopes params

end

mutual

theorem Target.parallel_resolve (scopes : Scopes) : (t : Target) →
    Parallel ρ (fun c c' => c' = Code.Target.renumber ρ c) (t.resolve scopes) (t.resolve scopes)
  | .name x => (Parallel.name scopes x).bind fun _ _ h => .pure (by rw [h]; rfl)
  | .index object index => (object.parallel_resolve scopes).bind fun _ _ h =>
    (index.parallel_resolve scopes).bind fun _ _ h' => .pure (by rw [h, h']; rfl)
  | .tuple targets => (parallel_resolveTargets scopes targets).bind fun _ _ h => .pure (by rw [h]; rfl)

theorem parallel_resolveTargets (scopes : Scopes) : (ts : List Target) →
    Parallel ρ (fun cs cs' => cs' = Code.renumberTargets ρ cs) (resolveTargets scopes ts)
      (resolveTargets scopes ts)
  | [] => .pure rfl
  | t :: ts => (t.parallel_resolve scopes).bind fun _ _ h =>
    (parallel_resolveTargets scopes ts).bind fun _ _ h' => .pure (by rw [h, h']; rfl)

end

mutual

theorem Stmt.parallel_resolve (scopes : Scopes) (inLoop : Bool) : (s : Stmt) →
    Parallel ρ (fun c c' => c' = Code.Stmt.renumber ρ c) (s.resolve scopes inLoop)
      (s.resolve scopes inLoop)
  | .expr e => (e.parallel_resolve scopes).bind fun _ _ h => .pure (by rw [h]; rfl)
  | .assign target value => (value.parallel_resolve scopes).bind fun _ _ h =>
    (target.parallel_resolve scopes).bind fun _ _ h' => .pure (by rw [h, h']; rfl)
  | .augment (.tuple _) _ _ => .throw _
  | .augment (.name x) op value => (value.parallel_resolve scopes).bind fun _ _ h =>
    (Target.parallel_resolve scopes (.name x)).bind fun _ _ h' => .pure (by rw [h, h']; rfl)
  | .augment (.index object index) op value => (value.parallel_resolve scopes).bind fun _ _ h =>
    (Target.parallel_resolve scopes (.index object index)).bind fun _ _ h' => .pure (by rw [h, h']; rfl)
  | .branch test body orelse => (test.parallel_resolve scopes).bind fun _ _ h =>
    (parallel_resolveBlock scopes inLoop body).bind fun _ _ h₁ =>
      (parallel_resolveBlock scopes inLoop orelse).bind fun _ _ h₂ => .pure (by rw [h, h₁, h₂]; rfl)
  | .loop target iter body => (iter.parallel_resolve scopes).bind fun _ _ h =>
    (target.parallel_resolve scopes).bind fun _ _ h₁ =>
      (parallel_resolveBlock scopes true body).bind fun _ _ h₂ => .pure (by rw [h, h₁, h₂]; rfl)
  | .leaveLoop => by
    cases inLoop
    · exact .throw _
    · exact .pure rfl
  | .nextRound => by
    cases inLoop
    · exact .throw _
    · exact .pure rfl
  | .pass => .pure rfl
  | .giveBack value => by
    rw [Stmt.resolve.eq_def]
    dsimp only
    split
    · exact .throw _
    · cases value with
      | none => exact .pure rfl
      | some e => exact (e.parallel_resolve scopes).bind fun _ _ h => .pure (by rw [h]; rfl)
  | .define name params body =>
    (Parallel.definition (parallel_resolveDefaults scopes params) fun inner =>
      (parallel_resolveBlock inner false body).bind fun _ _ h => .pure (by rw [h]; rfl)).bind
        fun _ _ h => (Parallel.name scopes name).bind fun _ _ h' => .pure (by rw [h, h']; rfl)

theorem parallel_resolveBlock (scopes : Scopes) (inLoop : Bool) : (ss : List Stmt) →
    Parallel ρ (fun cs cs' => cs' = Code.renumberBlock ρ cs) (resolveBlock scopes inLoop ss)
      (resolveBlock scopes inLoop ss)
  | [] => .pure rfl
  | s :: ss => (s.parallel_resolve scopes inLoop).bind fun _ _ h =>
    (parallel_resolveBlock scopes inLoop ss).bind fun _ _ h' => .pure (by rw [h, h']; rfl)

end

end Program

/-! ## Resolution at module level -/

namespace Code.Draft

variable {ρ : Renumbering} {d d' : Draft}

/-- An attempt from two tables is accepted or refused on both sides. -/
inductive SameVerdict (ρ : Renumbering) {α β : Type} (R : α → β → Prop) :
    Except Malformed α × Draft → Except Malformed β × Draft → Prop where
  | accepted {a : α} {b : β} {d d' : Draft} (tables : Renumbered ρ d.functions d'.functions) (h : R a b) :
    SameVerdict ρ R (.ok a, d) (.ok b, d')
  | refused (e : Malformed) {d d' : Draft} (tables : Renumbered ρ d.functions d'.functions) :
    SameVerdict ρ R (.error e, d) (.error e, d')

theorem attempt_parallel {α β : Type} {R : α → β → Prop} {x : Resolving α} {y : Resolving β}
    (tables : Renumbered ρ d.functions d'.functions) (h : Parallel ρ R x y) (hx : x.Grows) (hy : y.Grows) :
    SameVerdict ρ R (d.attempt x) (d'.attempt y) := by
  have ends := h tables
  cases ran : x d with
  | ok a d₁ =>
    cases ran' : y d' with
    | ok b d₁' =>
      rw [ran, ran'] at ends
      rw [attempt_of_ok ran, attempt_of_ok ran']
      cases ends with
      | ok tables h => exact .accepted tables h
    | error e d₁' =>
      rw [ran, ran'] at ends
      cases ends
  | error e d₁ =>
    cases ran' : y d' with
    | ok b d₁' =>
      rw [ran, ran'] at ends
      cases ends
    | error e' d₁' =>
      rw [ran, ran'] at ends
      rw [(attempt_of_error hx ran).2, (attempt_of_error hy ran').2]
      cases ends with
      | error e _ _ => exact .refused e tables

theorem resolveProgram_parallel (tables : Renumbered ρ d.functions d'.functions) (program : List Program.Stmt) :
    SameVerdict ρ (fun code code' => code' = renumberBlock ρ code) (d.resolveProgram program)
      (d'.resolveProgram program) :=
  have grows := Program.grows_resolveBlock [] false program
  attempt_parallel tables (Program.parallel_resolveBlock [] false program) grows grows

theorem resolveExpr_parallel (tables : Renumbered ρ d.functions d'.functions) (e : Program.Expr) :
    SameVerdict ρ (fun code code' => code' = Expr.renumber ρ code) (d.resolveExpr e) (d'.resolveExpr e) :=
  attempt_parallel tables (e.parallel_resolve []) (e.grows_resolve []) (e.grows_resolve [])

end Code.Draft

end Scriptlet
