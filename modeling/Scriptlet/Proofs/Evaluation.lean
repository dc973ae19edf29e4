import Scriptlet.Machine.Stmt
import Scriptlet.Proofs.Code.Needs
import Scriptlet.Proofs.Matching

/-!
# Evaluation on matching engines

If two engines do matching things at each request, then evaluating the same code on them does matching things.
The evaluator is gone through case by case here, and every statement about runs on matching heaps is an instance
of it.
-/

namespace Scriptlet

open Call (Args)
open Code (Arg Expr Need Stmt Target)

/-- How a statement ended, with matching results. -/
inductive Matching.flow (M : Matching) : Flow → Flow → Prop where
  | next : M.flow .next .next
  | result {v w : Value} (h : M.value v w) : M.flow (.result v) (.result w)
  | leaveLoop : M.flow .leaveLoop .leaveLoop
  | nextRound : M.flow .nextRound .nextRound

/-- Two engines do matching things at each request, for code whose needs meet `D`. -/
structure EngineMatch {σ τ W : Type} (C : Simulation σ τ W) (view : W → Matching) (D : Need → Prop)
    (k : Engine σ) (k' : Engine τ) : Prop where
  view_le : ∀ {w w'}, C.le w w' → (view w).Le (view w')
  word : ∀ {w s t x}, C.states w s t → D (.word x) → (view w).word x
  load : ∀ {w x}, D (.load x) → C.Runs w (fun w' => (view w').value) (k.load x) (k'.load x)
  store : ∀ {w x v v'}, D (.store x) → (view w).value v v' →
    C.Runs w (fun _ _ _ => True) (k.store x v) (k'.store x v')
  list : ∀ {w vs vs'}, (view w).values vs vs' →
    C.Runs w (fun w' => (view w').value) (k.list vs) (k'.list vs')
  tuple : ∀ {w vs vs'}, (view w).values vs vs' →
    C.Runs w (fun w' => (view w').value) (k.tuple vs) (k'.tuple vs')
  key : ∀ {w v v'}, (view w).value v v' → C.Runs w (fun _ => Eq) (k.key v) (k'.key v')
  dict : ∀ {w es es'}, OrderedMap.Matches (view w).entry es es' →
    C.Runs w (fun w' => (view w').value) (k.dict es) (k'.dict es')
  item : ∀ {w v v' i i'}, (view w).value v v' → (view w).value i i' →
    C.Runs w (fun w' => (view w').value) (k.item v i) (k'.item v' i')
  setItem : ∀ {w v v' i i' u u'}, (view w).value v v' → (view w).value i i' → (view w).value u u' →
    C.Runs w (fun _ _ _ => True) (k.setItem v i u) (k'.setItem v' i' u')
  attr : ∀ {w v v' a}, (view w).value v v' →
    C.Runs w (fun w' => (view w').value) (k.attr v a) (k'.attr v' a)
  binary : ∀ {w op v v' u u'}, (view w).value v v' → (view w).value u u' →
    C.Runs w (fun w' => (view w').value) (k.binary op v u) (k'.binary op v' u')
  augment : ∀ {w op v v' u u'}, (view w).value v v' → (view w).value u u' →
    C.Runs w (fun w' => (view w').value) (k.augment op v u) (k'.augment op v' u')
  compare : ∀ {w op v v' u u'}, (view w).value v v' → (view w).value u u' →
    C.Runs w (fun _ => Eq) (k.compare op v u) (k'.compare op v' u')
  negate : ∀ {w v v'}, (view w).value v v' →
    C.Runs w (fun w' => (view w').value) (k.negate v) (k'.negate v')
  truthy : ∀ {w v v'}, (view w).value v v' → C.Runs w (fun _ => Eq) (k.truthy v) (k'.truthy v')
  items : ∀ {w v v'}, (view w).value v v' →
    C.Runs w (fun w' => (view w').values) (k.items v) (k'.items v')
  keywords : ∀ {w v v'}, (view w).value v v' →
    C.Runs w (fun w' => (view w').bindings) (k.keywords v) (k'.keywords v')
  function : ∀ {w id vs vs'}, D (.make id vs.length) → (view w).values vs vs' →
    C.Runs w (fun w' => (view w').value) (k.function id vs) (k'.function id vs')
  call : ∀ {w v v' args args'}, (view w).value v v' → (view w).args args args' →
    C.Runs w (fun w' => (view w').value) (k.call v args) (k'.call v' args')
  begin : ∀ {w kind}, C.Runs w (fun _ _ _ => True) (k.begin kind) (k'.begin kind)

namespace EngineMatch

variable {σ τ W : Type} {C : Simulation σ τ W} {view : W → Matching} {D : Need → Prop}
  {k : Engine σ} {k' : Engine τ}

theorem mono (E : EngineMatch C view D k k') {u w : W} (h : C.le u w) {v v' : Value}
    (hv : (view u).value v v') : (view w).value v v' :=
  hv.mono (E.view_le h)

/-! ## Expressions -/

/-- Goes on according to the truth of a value. -/
theorem test (E : EngineMatch C view D k k') {α β : Type} {R : W → α → β → Prop} {w : W}
    {v v' : Value} (hv : (view w).value v v') {x y : EStateM Failure σ α} {x' y' : EStateM Failure τ β}
    (hx : ∀ w', C.le w w' → C.Runs w' R x x') (hy : ∀ w', C.le w w' → C.Runs w' R y y') :
    C.Runs w R (do if ← k.truthy v then x else y) (do if ← k'.truthy v' then x' else y') := by
  refine (E.truthy hv).bind fun w' b b' hw' hb => ?_
  subst hb
  cases b
  · exact hy w' hw'
  · exact hx w' hw'

mutual

theorem eval (E : EngineMatch C view D k k') {w : W} :
    (e : Expr) → (∀ n ∈ e.needs, D n) →
      C.Runs w (fun w' => (view w').value) (k.eval e) (k'.eval e)
  | .literal l, h => by
    cases l with
    | none => exact .pure .none
    | bool b => exact .pure (.bool b)
    | int n => exact .pure (.int n)
    | str s =>
      have known : D (.word s) := h _ (by simp [Expr.needs, Code.Literal.needs])
      exact fun _ _ hst => .ok (C.refl w) hst (.text (E.word hst known))
  | .name x, h => E.load (h _ (by simp [Expr.needs]))
  | .list items, h => (E.evalAll items h).bind fun _ _ _ _ hv => E.list hv.1
  | .tuple items, h => (E.evalAll items h).bind fun _ _ _ _ hv => E.tuple hv.1
  | .dict entries, h => (E.evalEntries .empty entries h).bind fun _ _ _ _ he => E.dict he
  | .index object index, h => by
    simp only [Expr.needs, List.forall_mem_append] at h
    exact (E.eval object h.1).bind fun _ _ _ _ hv => (E.eval index h.2).bind
      fun _ _ _ hw hi => E.item (E.mono hw hv) hi
  | .attr object attr, h => by
    simp only [Expr.needs, List.forall_mem_cons] at h
    exact (E.eval object h.2).bind fun _ _ _ _ hv => E.attr hv
  | .call callee args, h => by
    simp only [Expr.needs, List.forall_mem_append] at h
    exact (E.eval callee h.1).bind fun _ _ _ _ hv => (E.evalArgs args h.2).bind
      fun _ _ _ hw ha => E.call (E.mono hw hv) ha
  | .binary left op right, h => by
    simp only [Expr.needs, List.forall_mem_append] at h
    exact (E.eval left h.1).bind fun _ _ _ _ hv => (E.eval right h.2).bind
      fun _ _ _ hw hu => E.binary (E.mono hw hv) hu
  | .compare left op right, h => by
    simp only [Expr.needs, List.forall_mem_append] at h
    exact (E.eval left h.1).bind fun _ _ _ _ hv => (E.eval right h.2).bind
      fun _ _ _ hw hu => (E.compare (E.mono hw hv) hu).bind fun _ _ _ _ hb => hb ▸ .pure (.bool _)
  | .not operand, h =>
    (E.eval operand h).bind fun _ _ _ _ hv => (E.truthy hv).bind
      fun _ _ _ _ hb => hb ▸ .pure (.bool _)
  | .neg operand, h => (E.eval operand h).bind fun _ _ _ _ hv => E.negate hv
  | .and left right, h => by
    simp only [Expr.needs, List.forall_mem_append] at h
    exact (E.eval left h.1).bind fun _ _ _ _ hv => E.test hv (fun _ _ => E.eval right h.2)
      fun _ hw => .pure (E.mono hw hv)
  | .or left right, h => by
    simp only [Expr.needs, List.forall_mem_append] at h
    exact (E.eval left h.1).bind fun _ _ _ _ hv => E.test hv (fun _ hw => .pure (E.mono hw hv))
      fun _ _ => E.eval right h.2
  | .cond test body orelse, h => by
    simp only [Expr.needs, List.forall_mem_append] at h
    exact (E.eval test h.1.1).bind fun _ _ _ _ hv => E.test hv (fun _ _ => E.eval body h.1.2)
      fun _ _ => E.eval orelse h.2
  | .function id defaults, h => by
    simp only [Expr.needs, List.forall_mem_cons] at h
    exact (E.evalAll defaults h.2).bind fun _ _ _ _ hv => E.function (hv.2 ▸ h.1) hv.1

theorem evalAll (E : EngineMatch C view D k k') {w : W} :
    (es : List Expr) → (∀ n ∈ Code.exprsNeeds es, D n) →
      C.Runs w (fun w' vs vs' => (view w').values vs vs' ∧ vs.length = es.length) (k.evalAll es)
        (k'.evalAll es)
  | [], _ => .pure ⟨.nil, rfl⟩
  | e :: es, h => by
    simp only [Code.exprsNeeds, List.forall_mem_append] at h
    exact (E.eval e h.1).bind fun _ _ _ _ hv => (E.evalAll es h.2).bind
      fun _ _ _ hw hvs => .pure ⟨.cons (E.mono hw hv) hvs.1, by simp [hvs.2]⟩

theorem evalEntries (E : EngineMatch C view D k k') {w : W}
    {m m' : OrderedMap Key (Value × Value)} (hm : m.Matches (view w).entry m') :
    (es : List (Expr × Expr)) → (∀ n ∈ Code.entriesNeeds es, D n) →
      C.Runs w (fun w' es fs => OrderedMap.Matches (view w').entry es fs) (k.evalEntries m es)
        (k'.evalEntries m' es)
  | [], _ => .pure hm
  | (index, value) :: es, h => by
    simp only [Code.entriesNeeds, List.forall_mem_append] at h
    refine (E.eval index h.1.1).bind fun w₁ i i' hw₁ hi => ?_
    refine (E.eval value h.1.2).bind fun w₂ v v' hw₂ hv => ?_
    refine (E.key (E.mono hw₂ hi)).bind fun w₃ key _ hw₃ hk => ?_
    subst hk
    have le := E.view_le (C.trans hw₁ (C.trans hw₂ hw₃))
    exact E.evalEntries ((hm.imp fun _ _ _ => Matching.entry.mono le).insert
      ⟨E.mono (C.trans hw₂ hw₃) hi, E.mono hw₃ hv⟩) es h.2

theorem evalArgs (E : EngineMatch C view D k k') {w : W} :
    (args : List Arg) → (∀ n ∈ Code.argsNeeds args, D n) →
      C.Runs w (fun w' => (view w').args) (k.evalArgs args) (k'.evalArgs args)
  | [], _ => .pure ⟨.nil, .nil⟩
  | .positional e :: more, h => by
    simp only [Code.argsNeeds, List.forall_mem_append] at h
    exact (E.eval e h.1).bind fun _ _ _ _ hv => (E.evalArgs more h.2).bind
      fun _ _ _ hw ha => .pure ⟨.cons (E.mono hw hv) ha.positional, ha.keywords⟩
  | .keyword x e :: more, h => by
    simp only [Code.argsNeeds, List.forall_mem_cons, List.forall_mem_append] at h
    refine (E.eval e h.2.1).bind fun _ _ _ _ hv => (E.evalArgs more h.2.2).bind
      fun w' _ _ hw ha => fun _ _ hst => ?_
    exact .ok (C.refl w') hst
      ⟨ha.positional, .cons ⟨rfl, E.word hst h.1, E.mono hw hv⟩ ha.keywords⟩
  | .spread e :: more, h => by
    simp only [Code.argsNeeds, List.forall_mem_append] at h
    exact (E.eval e h.1).bind fun _ _ _ _ hv => (E.items hv).bind fun _ _ _ _ hi =>
      (E.evalArgs more h.2).bind fun _ _ _ hw ha =>
        .pure ⟨List.rel_append (hi.mono (E.view_le hw)) ha.positional, ha.keywords⟩
  | .spreadKeywords e :: more, h => by
    simp only [Code.argsNeeds, List.forall_mem_append] at h
    exact (E.eval e h.1).bind fun _ _ _ _ hv => (E.keywords hv).bind fun _ _ _ _ hk =>
      (E.evalArgs more h.2).bind fun _ _ _ hw ha =>
        .pure ⟨ha.positional, List.rel_append (hk.mono (E.view_le hw)) ha.keywords⟩

end

/-! ## Assignment -/

mutual

theorem assign (E : EngineMatch C view D k k') {w : W} :
    (t : Target) → (∀ n ∈ t.needs, D n) → {v v' : Value} → (view w).value v v' →
      C.Runs w (fun _ _ _ => True) (k.assign t v) (k'.assign t v')
  | .name x, h, _, _, hv => E.store (h _ (by simp [Target.needs])) hv
  | .index object index, h, _, _, hv => by
    simp only [Target.needs, List.forall_mem_append] at h
    refine (E.eval object h.1).bind fun w₁ _ _ hw₁ ho => ?_
    refine (E.eval index h.2).bind fun w₂ _ _ hw₂ hi => ?_
    exact E.setItem (E.mono hw₂ ho) hi (E.mono (C.trans hw₁ hw₂) hv)
  | .tuple targets, h, _, _, hv => by
    refine (E.items hv).bind fun w' vs vs' _ hi => ?_
    rw [← hi.length_eq]
    split
    · exact E.assignAll targets h hi
    · exact .raise _

theorem assignAll (E : EngineMatch C view D k k') {w : W} :
    (ts : List Target) → (∀ n ∈ Code.targetsNeeds ts, D n) → {vs vs' : List Value} →
      (view w).values vs vs' →
      C.Runs w (fun _ _ _ => True) (k.assignAll ts vs) (k'.assignAll ts vs')
  | [], _, _, _, hv => by cases hv <;> exact .pure trivial
  | t :: ts, h, _, _, hv => by
    simp only [Code.targetsNeeds, List.forall_mem_append] at h
    cases hv with
    | nil => exact .pure trivial
    | cons hv hvs =>
      exact (E.assign t h.1 hv).bind fun _ _ _ hw _ =>
        E.assignAll ts h.2 (Matching.values.mono (E.view_le hw) hvs)

end

theorem augmentTarget (E : EngineMatch C view D k k') {w : W} (t : Target) (op : Program.Operator)
    (e : Expr) (ht : ∀ n ∈ t.reads ++ t.needs, D n) (he : ∀ n ∈ e.needs, D n) :
    C.Runs w (fun _ _ _ => True) (k.augmentTarget t op e) (k'.augmentTarget t op e) := by
  cases t with
  | name x =>
    refine (E.load (ht _ (by simp [Target.reads]))).bind fun w₁ _ _ hw₁ hc => ?_
    refine (E.eval e he).bind fun w₂ _ _ hw₂ hv => ?_
    refine (E.augment (E.mono hw₂ hc) hv).bind fun w₃ _ _ hw₃ hu => ?_
    exact E.store (ht _ (by simp [Target.needs])) hu
  | index object index =>
    simp only [Target.reads, Target.needs, List.nil_append, List.forall_mem_append] at ht
    refine (E.eval object ht.1).bind fun w₁ _ _ hw₁ ho => ?_
    refine (E.eval index ht.2).bind fun w₂ _ _ hw₂ hi => ?_
    refine (E.item (E.mono hw₂ ho) hi).bind fun w₃ _ _ hw₃ hc => ?_
    refine (E.eval e he).bind fun w₄ _ _ hw₄ hv => ?_
    refine (E.augment (E.mono hw₄ hc) hv).bind fun w₅ _ _ hw₅ hu => ?_
    have hw := C.trans hw₃ (C.trans hw₄ hw₅)
    exact E.setItem (E.mono (C.trans hw₂ hw) ho) (E.mono hw hi) hu
  | tuple targets => exact .raise _

/-! ## Statements -/

/-- A loop over matching items whose rounds match. -/
theorem rounds (E : EngineMatch C view D k k') {w : W} {f : Value → EStateM Failure σ Flow}
    {g : Value → EStateM Failure τ Flow}
    (h : ∀ {w' v v'}, C.le w w' → (view w').value v v' →
      C.Runs w' (fun w' => (view w').flow) (f v) (g v')) {vs vs' : List Value}
    (hv : (view w).values vs vs') : C.Runs w (fun w' => (view w').flow) (Engine.rounds f vs) (Engine.rounds g vs') := by
  induction vs generalizing w vs' with
  | nil =>
    cases hv
    exact .pure .next
  | cons v vs ih =>
    cases hv with
    | cons hv hvs =>
      refine (h (C.refl w) hv).bind fun w' _ _ hw' hf => ?_
      have rest := ih (fun hw'' => h (C.trans hw' hw''))
        (Matching.values.mono (E.view_le hw') hvs)
      cases hf with
      | next => exact rest
      | nextRound => exact rest
      | leaveLoop => exact .pure .next
      | result hr => exact .pure (.result hr)

mutual

theorem exec (E : EngineMatch C view D k k') {w : W} :
    (s : Stmt) → (∀ n ∈ s.needs, D n) → C.Runs w (fun w' => (view w').flow) (k.exec s) (k'.exec s)
  | .expr e, h => (E.eval e h).bind fun _ _ _ _ _ => .pure .next
  | .assign target e, h => by
    simp only [Stmt.needs, List.forall_mem_append] at h
    exact (E.eval e h.2).bind fun _ _ _ _ hv => (E.assign target h.1 hv).bind
      fun _ _ _ _ _ => .pure .next
  | .augment target op e, h => by
    rw [Stmt.needs, List.forall_mem_append] at h
    exact (E.augmentTarget target op e h.1 h.2).bind fun _ _ _ _ _ => .pure .next
  | .branch test body orelse, h => by
    simp only [Stmt.needs, List.forall_mem_append] at h
    exact (E.eval test h.1.1).bind fun _ _ _ _ hv => E.test hv (fun _ _ => E.execBlock body h.1.2)
      fun _ _ => E.execBlock orelse h.2
  | .loop target iter body, h => by
    simp only [Stmt.needs, List.forall_mem_append] at h
    refine (E.eval iter h.1.2).bind fun w₁ _ _ hw₁ hv => ?_
    refine (E.items hv).bind fun w₂ vs vs' hw₂ hi => E.rounds (fun _ hv => ?_) hi
    exact (E.assign target h.1.1 hv).bind fun _ _ _ _ _ => E.execBlock body h.2
  | .leaveLoop, _ => .pure .leaveLoop
  | .nextRound, _ => .pure .nextRound
  | .pass, _ => .pure .next
  | .giveBack none, _ => .pure (.result .none)
  | .giveBack (some e), h => (E.eval e h).bind fun _ _ _ _ hv => .pure (.result hv)
  | .define x id defaults, h => by
    simp only [Stmt.needs, List.forall_mem_cons] at h
    refine (E.evalAll defaults h.2.2).bind fun _ _ _ _ hv => ?_
    refine (E.function (hv.2 ▸ h.2.1) hv.1).bind fun _ _ _ _ hf => ?_
    exact (E.store h.1 hf).bind fun _ _ _ _ _ => .pure .next

theorem execBlock (E : EngineMatch C view D k k') {w : W} :
    (ss : List Stmt) → (∀ n ∈ Code.blockNeeds ss, D n) →
      C.Runs w (fun w' => (view w').flow) (k.execBlock ss) (k'.execBlock ss)
  | [], _ => .pure .next
  | s :: ss, h => by
    simp only [Code.blockNeeds, List.forall_mem_append] at h
    refine E.begin.bind fun _ _ _ _ _ => (E.exec s h.1).bind fun _ _ _ _ hf => ?_
    cases hf with
    | next => exact E.execBlock ss h.2
    | result hr => exact .pure (.result hr)
    | leaveLoop => exact .pure .leaveLoop
    | nextRound => exact .pure .nextRound

end

theorem execBody (E : EngineMatch C view D k k') {w : W} (b : Code.Body) (h : ∀ n ∈ b.needs, D n) :
    C.Runs w (fun w' => (view w').value) (k.execBody b) (k'.execBody b) := by
  cases b with
  | expr e => exact E.eval e h
  | block stmts =>
    refine (E.execBlock stmts h).bind fun _ _ _ _ hf => ?_
    cases hf with
    | result hr => exact .pure hr
    | _ => exact .pure .none

end EngineMatch

end Scriptlet
