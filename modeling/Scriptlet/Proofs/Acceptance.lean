import Scriptlet.Proofs.Code.Growth
import Scriptlet.Proofs.WellFormed

/-!
# Which programs are accepted

Resolution accepts a program if and only if it is well-formed, and it raises a syntax error otherwise. The only limit is
the number of functions that names are looked up through. Each step of resolution decides one condition on the piece of
syntax that it goes through, whatever it has met before.
-/

namespace Scriptlet

open Code (Resolving Scopes)
open Fault (Cause Malformed)

/-! ## What a step decides -/

namespace Code.Resolving

variable {α β : Type}

/-- A step of resolution goes on if and only if a condition holds. -/
def Decides (step : Resolving α) (P : Prop) : Prop := ∀ d, (∃ a d', step d = .ok a d') ↔ P

namespace Decides

variable {x : Resolving α} {P Q : Prop}

theorem congr (h : Decides x P) (iff : P ↔ Q) : Decides x Q := fun d => (h d).trans iff

theorem pure (a : α) : Decides (Pure.pure a) True := fun d => ⟨fun _ => trivial, fun _ => ⟨a, d, rfl⟩⟩

theorem throw (e : Malformed) : Decides (MonadExcept.throw e : Resolving α) False := by
  refine fun d => ⟨?_, False.elim⟩
  rintro ⟨a, d', h⟩
  cases h

theorem bind {f : α → Resolving β} (hx : Decides x P) (hf : ∀ a, Decides (f a) Q) : Decides (x >>= f) (P ∧ Q) := by
  intro d
  simp only [Bind.bind, EStateM.bind]
  cases ran : x d with
  | error e d₁ =>
    have refused : ¬ P := by
      intro holds
      obtain ⟨a, d', h⟩ := (hx d).2 holds
      rw [ran] at h
      cases h
    simp [refused]
  | ok a d₁ =>
    have holds : P := (hx d).1 ⟨a, d₁, ran⟩
    simpa [holds] using hf a d₁

/-- A step that is followed by one that never refuses. -/
theorem map {f : α → β} (hx : Decides x P) : Decides (x >>= fun a => Pure.pure (f a)) P :=
  (hx.bind fun a => .pure (f a)).congr (by simp)

theorem learn (w : String) : Decides (Resolving.learn w) True :=
  fun _ => ⟨fun _ => trivial, fun _ => ⟨(), _, rfl⟩⟩

theorem learnAll (ws : List String) : Decides (Resolving.learnAll ws) True := by
  induction ws with
  | nil => exact .pure ()
  | cons w ws ih => exact ((learn w).bind fun _ => ih).congr (by simp)

theorem addFunction (f : Function) : Decides (Resolving.addFunction f) True :=
  fun _ => ⟨fun _ => trivial, fun _ => ⟨_, _, rfl⟩⟩

/-- A name is found unless it is bound too many levels further out. -/
theorem name {scopes : Scopes} (shallow : scopes.length ≤ maxLevels + 1) (x : String) :
    Decides (Resolving.name scopes x) True := by
  refine ((learn x).bind (Q := True) fun _ => ?_).congr (by simp)
  cases found : scopes.findIdx? (·.contains x) with
  | none => exact .pure _
  | some i =>
    cases i with
    | zero => exact .pure _
    | succ i =>
      have within : i + 1 < scopes.length := (List.findIdx?_eq_some_iff_getElem.1 found).1
      simp only
      rw [if_neg (by omega)]
      exact .pure _

theorem ofParams (function : String) (params : List Program.Param) :
    Decides (MonadExcept.ofExcept (ParamGroups.ofParams function params)) (Program.ProperParams params) := by
  intro d
  have accepted : (∃ g, ParamGroups.ofParams function params = .ok g) ↔ Program.ProperParams params :=
    ParamGroups.ofParams_isOk_iff
  rw [← accepted]
  cases ParamGroups.ofParams function params with
  | error e =>
    constructor
    · rintro ⟨a, d', h⟩
      cases h
    · rintro ⟨g, h⟩
      cases h
  | ok g => exact ⟨fun _ => ⟨g, rfl⟩, fun _ => ⟨g, d, rfl⟩⟩

/-- A definition is accepted if its parameter list, its defaults and its body are. -/
theorem definition {scopes : Scopes} {function : String} {params : List Program.Param} {assigned : List String}
    {defaults : Resolving (List Expr)} {body : Scopes → Resolving Body} (hd : Decides defaults P)
    (hb : ∀ bound, Decides (body (bound :: scopes)) Q) :
    Decides (Resolving.definition scopes function params assigned defaults body)
      (Program.ProperParams params ∧ P ∧ Q) := by
  unfold Resolving.definition
  refine ((learn function).bind fun _ => (ofParams function params).bind fun groups => hd.bind fun values =>
    (learnAll _).bind fun _ => (hb _).bind fun b => (addFunction _).map).congr ?_
  simp

end Decides

end Code.Resolving

namespace Program

open Code.Resolving (Decides)

/-- No part of a part stands in too many functions. -/
def Part.Shallow : Part → Prop := Part.All fun q => q.place.level ≤ Code.maxLevels

/-- All parts of a part keep the rules. -/
def Part.Sound : Part → Prop := Part.All Part.Proper

theorem Part.Shallow.part {p q : Part} (h : p.Shallow) (hq : q ∈ p.parts) : q.Shallow := All.part h hq

theorem Part.Shallow.length_le {here : Place} {p : Piece} {scopes : Scopes} (h : Part.Shallow ⟨here, p⟩)
    (level : scopes.length = here.level) : scopes.length ≤ Code.maxLevels + 1 := by
  have shallow : here.level ≤ Code.maxLevels := All.self h
  omega

/-- A step decides about a part if it decides about its rule and about the parts it consists of. -/
theorem Part.decides {α : Type} {x : Resolving α} {P : Prop} {p : Part} (h : Decides x P)
    (iff : P ↔ p.Proper ∧ ∀ q ∈ p.parts, q.Sound) : Decides x p.Sound :=
  h.congr (iff.trans Part.all_iff.symm)

theorem decides_definition {here : Place} {scopes : Scopes} {function : String} {params : List Param}
    {assigned : List String} {defaults : Resolving (List Code.Expr)} {body : Scopes → Resolving Code.Body} {Q : Prop}
    (hd : Decides defaults (∀ e ∈ params.filterMap (·.default?), Part.Sound ⟨here, .expr e⟩))
    (hb : ∀ bound, Decides (body (bound :: scopes)) Q) :
    Decides (Resolving.definition scopes function params assigned defaults body)
      (Part.Sound ⟨here, .params params⟩ ∧ Q) := by
  refine (Decides.definition hd hb).congr ?_
  rw [← and_assoc]
  refine and_congr_left fun _ => Iff.trans ?_ Part.all_iff.symm
  simp only [Part.Proper, Part.parts, List.forall_mem_map]
  rfl

/-! ## Expressions -/

mutual

theorem Expr.decides_resolve {here : Place} {scopes : Scopes} (level : scopes.length = here.level) :
    (e : Expr) → Part.Shallow ⟨here, .expr e⟩ → Decides (e.resolve scopes) (Part.Sound ⟨here, .expr e⟩)
  | .none, _ => Part.decides (.pure _) (by simp)
  | .bool b, _ => Part.decides (.pure _) (by simp)
  | .int n, _ => Part.decides (.pure _) (by simp)
  | .str s, _ => Part.decides (Decides.learn s).map (by simp)
  | .name x, h => Part.decides (Decides.name (h.length_le level) x).map (by simp)
  | .list items, h =>
    have inner := decides_resolveExprs level items fun e he => h.part (by simpa using he)
    Part.decides inner.map (by simp)
  | .tuple items, h =>
    have inner := decides_resolveExprs level items fun e he => h.part (by simpa using he)
    Part.decides inner.map (by simp)
  | .dict entries, h =>
    have keys (e : Expr × Expr) (he : e ∈ entries) : Part.Shallow ⟨here, .expr e.1⟩ :=
      h.part (by simpa using ⟨e.1, e.2, he, .inl rfl⟩)
    have values (e : Expr × Expr) (he : e ∈ entries) : Part.Shallow ⟨here, .expr e.2⟩ :=
      h.part (by simpa using ⟨e.1, e.2, he, .inr rfl⟩)
    Part.decides (decides_resolveEntries level entries keys values).map (by simp; grind)
  | .index object index, h =>
    have first := object.decides_resolve level (h.part (by simp))
    have second := index.decides_resolve level (h.part (by simp))
    Part.decides (first.bind fun _ => second.map) (by simp)
  | .attr object attr, h =>
    have first := object.decides_resolve level (h.part (by simp))
    Part.decides (first.bind fun _ => (Decides.learn attr).map) (by simp)
  | .call callee args, h =>
    have first := callee.decides_resolve level (h.part (by simp))
    have shallow : Part.Shallow ⟨here, .args args⟩ := h.part (by simp)
    have second := decides_resolveArgs level false args fun a ha => shallow.part (by simpa using ⟨a, ha, rfl⟩)
    have together : Decides (resolveArgs scopes false args) (Part.Sound ⟨here, .args args⟩) :=
      Part.decides second (by simp [and_comm])
    Part.decides (first.bind fun _ => together.map) (by simp)
  | .binary left op right, h =>
    have first := left.decides_resolve level (h.part (by simp))
    have second := right.decides_resolve level (h.part (by simp))
    Part.decides (first.bind fun _ => second.map) (by simp)
  | .compare left op right, h =>
    have first := left.decides_resolve level (h.part (by simp))
    have second := right.decides_resolve level (h.part (by simp))
    Part.decides (first.bind fun _ => second.map) (by simp)
  | .not operand, h =>
    have inner := operand.decides_resolve level (h.part (by simp))
    Part.decides inner.map (by simp)
  | .neg operand, h =>
    have inner := operand.decides_resolve level (h.part (by simp))
    Part.decides inner.map (by simp)
  | .and left right, h =>
    have first := left.decides_resolve level (h.part (by simp))
    have second := right.decides_resolve level (h.part (by simp))
    Part.decides (first.bind fun _ => second.map) (by simp)
  | .or left right, h =>
    have first := left.decides_resolve level (h.part (by simp))
    have second := right.decides_resolve level (h.part (by simp))
    Part.decides (first.bind fun _ => second.map) (by simp)
  | .cond test body orelse, h =>
    have first := test.decides_resolve level (h.part (by simp))
    have second := body.decides_resolve level (h.part (by simp))
    have third := orelse.decides_resolve level (h.part (by simp))
    Part.decides (first.bind fun _ => second.bind fun _ => third.map) (by simp)
  | .lambda params body, h =>
    have shallow : Part.Shallow ⟨here, .params params⟩ := h.part (by simp)
    have defaults := decides_resolveDefaults level params fun e he => shallow.part (by simpa using he)
    have inner (bound : List String) :
        Decides (body.resolve (bound :: scopes)) (Part.Sound ⟨here.inner, .expr body⟩) :=
      body.decides_resolve (by simp [Place.inner, level]) (h.part (by simp))
    Part.decides (decides_definition defaults fun bound => (inner bound).map).map (by simp)

theorem decides_resolveExprs {here : Place} {scopes : Scopes} (level : scopes.length = here.level) :
    (es : List Expr) → (∀ e ∈ es, Part.Shallow ⟨here, .expr e⟩) →
    Decides (resolveExprs scopes es) (∀ e ∈ es, Part.Sound ⟨here, .expr e⟩)
  | [], _ => (Decides.pure _).congr (by simp)
  | e :: es, h =>
    have first := e.decides_resolve level (h e (by simp))
    have rest := decides_resolveExprs level es fun e' he' => h e' (by simp [he'])
    (first.bind fun _ => rest.map).congr (by simp)

theorem decides_resolveEntries {here : Place} {scopes : Scopes} (level : scopes.length = here.level) :
    (es : List (Expr × Expr)) → (∀ e ∈ es, Part.Shallow ⟨here, .expr e.1⟩) →
    (∀ e ∈ es, Part.Shallow ⟨here, .expr e.2⟩) →
    Decides (resolveEntries scopes es)
      (∀ e ∈ es, Part.Sound ⟨here, .expr e.1⟩ ∧ Part.Sound ⟨here, .expr e.2⟩)
  | [], _, _ => (Decides.pure _).congr (by simp)
  | (k, v) :: es, hk, hv =>
    have key := k.decides_resolve level (hk (k, v) (by simp))
    have value := v.decides_resolve level (hv (k, v) (by simp))
    have rest := decides_resolveEntries level es (fun e he => hk e (by simp [he])) fun e he => hv e (by simp [he])
    (key.bind fun _ => value.bind fun _ => rest.map).congr (by simp [and_assoc])

-- The flag that a keyword was seen stands for the arguments before.
theorem decides_resolveArgs {here : Place} {scopes : Scopes} (level : scopes.length = here.level)
    (keywordSeen : Bool) : (args : List Arg) → (∀ a ∈ args, Part.Shallow ⟨here, .expr a.value⟩) →
    Decides (resolveArgs scopes keywordSeen args) ((∀ a ∈ args, Part.Sound ⟨here, .expr a.value⟩) ∧
      ProperArgs args ∧ (keywordSeen → ∀ a ∈ args, ¬ a.isPositional))
  | [], _ => (Decides.pure _).congr (by simp [ProperArgs])
  | .positional value :: args, h => by
    have first := value.decides_resolve level (h (.positional value) (by simp))
    have rest := decides_resolveArgs level keywordSeen args fun a ha => h a (by simp [ha])
    rw [resolveArgs]
    cases keywordSeen with
    | true => exact (Decides.throw _).congr (by simp [Arg.isPositional])
    | false =>
      refine (first.bind fun _ => rest.map).congr ?_
      simp [ProperArgs, Arg.isKeyword, Arg.value, and_assoc]
  | .keyword x value :: args, h =>
    have first := value.decides_resolve level (h (.keyword x value) (by simp))
    have rest := decides_resolveArgs level true args fun a ha => h a (by simp [ha])
    ((Decides.learn x).bind fun _ => first.bind fun _ => rest.map).congr (by
      simp [ProperArgs, Arg.isKeyword, Arg.isPositional, Arg.value]; grind)
  | .spread value :: args, h =>
    have first := value.decides_resolve level (h (.spread value) (by simp))
    have rest := decides_resolveArgs level keywordSeen args fun a ha => h a (by simp [ha])
    (first.bind fun _ => rest.map).congr (by
      simp [ProperArgs, Arg.isKeyword, Arg.isPositional, Arg.value]; grind)
  | .spreadKeywords value :: args, h =>
    have first := value.decides_resolve level (h (.spreadKeywords value) (by simp))
    have rest := decides_resolveArgs level true args fun a ha => h a (by simp [ha])
    (first.bind fun _ => rest.map).congr (by
      simp [ProperArgs, Arg.isKeyword, Arg.isPositional, Arg.value]; grind)

theorem decides_resolveDefaults {here : Place} {scopes : Scopes} (level : scopes.length = here.level) :
    (params : List Param) → (∀ e ∈ params.filterMap (·.default?), Part.Shallow ⟨here, .expr e⟩) →
    Decides (resolveDefaults scopes params) (∀ e ∈ params.filterMap (·.default?), Part.Sound ⟨here, .expr e⟩)
  | [], _ => (Decides.pure _).congr (by simp)
  | .defaulted x value :: params, h =>
    have first := value.decides_resolve level (h value (by simp [Param.default?]))
    have rest := decides_resolveDefaults level params fun e he => h e (List.mem_cons_of_mem _ he)
    (first.bind fun _ => rest.map).congr (by simp [Param.default?])
  | .required x :: params, h => decides_resolveDefaults level params h
  | .rest x :: params, h => decides_resolveDefaults level params h
  | .bareStar :: params, h => decides_resolveDefaults level params h
  | .keywords x :: params, h => decides_resolveDefaults level params h

end

/-! ## Statements -/

mutual

theorem Target.decides_resolve {here : Place} {scopes : Scopes} (level : scopes.length = here.level) :
    (t : Target) → Part.Shallow ⟨here, .target t⟩ → Decides (t.resolve scopes) (Part.Sound ⟨here, .target t⟩)
  | .name x, h => Part.decides (Decides.name (h.length_le level) x).map (by simp)
  | .index object index, h =>
    have first := object.decides_resolve level (h.part (by simp))
    have second := index.decides_resolve level (h.part (by simp))
    Part.decides (first.bind fun _ => second.map) (by simp)
  | .tuple targets, h =>
    have inner := decides_resolveTargets level targets fun t ht => h.part (by simpa using ht)
    Part.decides inner.map (by simp)

theorem decides_resolveTargets {here : Place} {scopes : Scopes} (level : scopes.length = here.level) :
    (ts : List Target) → (∀ t ∈ ts, Part.Shallow ⟨here, .target t⟩) →
    Decides (resolveTargets scopes ts) (∀ t ∈ ts, Part.Sound ⟨here, .target t⟩)
  | [], _ => (Decides.pure _).congr (by simp)
  | t :: ts, h =>
    have first := t.decides_resolve level (h t (by simp))
    have rest := decides_resolveTargets level ts fun t' ht' => h t' (by simp [ht'])
    (first.bind fun _ => rest.map).congr (by simp)

end

mutual

theorem Stmt.decides_resolve (here : Place) {scopes : Scopes} (level : scopes.length = here.level) :
    (s : Stmt) → Part.Shallow ⟨here, .stmt s⟩ →
    Decides (s.resolve scopes here.inLoop) (Part.Sound ⟨here, .stmt s⟩)
  | .expr e, h =>
    have inner := e.decides_resolve level (h.part (by simp))
    Part.decides inner.map (by simp)
  | .assign target value, h =>
    have first := value.decides_resolve level (h.part (by simp))
    have second := target.decides_resolve level (h.part (by simp))
    Part.decides (first.bind fun _ => second.map) (by simp [and_comm])
  | .augment (.tuple _) _ _, _ => Part.decides (.throw _) (by simp [Target.isTuple])
  | .augment (.name x) op value, h =>
    have first := value.decides_resolve level (h.part (by simp))
    have second := (Target.name x).decides_resolve level (h.part (by simp))
    Part.decides (first.bind fun _ => second.map) (by simp [Target.isTuple, and_comm])
  | .augment (.index object index) op value, h =>
    have first := value.decides_resolve level (h.part (by simp))
    have second := (Target.index object index).decides_resolve level (h.part (by simp))
    Part.decides (first.bind fun _ => second.map) (by simp [Target.isTuple, and_comm])
  | .branch test body orelse, h =>
    have first := test.decides_resolve level (h.part (by simp))
    have second := decides_resolveBlock here level body fun s hs => h.part (by simp [hs])
    have third := decides_resolveBlock here level orelse fun s hs => h.part (by simp [hs])
    Part.decides (first.bind fun _ => second.bind fun _ => third.map) (by simp [or_imp, forall_and])
  | .loop target iter body, h =>
    have first := iter.decides_resolve level (h.part (by simp))
    have second := target.decides_resolve level (h.part (by simp))
    have third := decides_resolveBlock here.looped level body fun s hs => h.part (by simp [hs])
    Part.decides (first.bind fun _ => second.bind fun _ => third.map) (by simp [or_imp, forall_and, and_left_comm])
  | .leaveLoop, _ => by
    rw [Stmt.resolve]
    cases looped : here.inLoop with
    | true => exact Part.decides (.pure _) (by simp [looped])
    | false => exact Part.decides (.throw _) (by simp [looped])
  | .nextRound, _ => by
    rw [Stmt.resolve]
    cases looped : here.inLoop with
    | true => exact Part.decides (.pure _) (by simp [looped])
    | false => exact Part.decides (.throw _) (by simp [looped])
  | .pass, _ => Part.decides (.pure _) (by simp)
  | .giveBack value, h => by
    unfold Stmt.resolve
    cases scopes with
    | nil => exact Part.decides (.throw _) (by simp [← level])
    | cons bound scopes =>
      have inside : 0 < here.level := by simp [← level]
      cases value with
      | none => exact Part.decides (.pure _) (by simp [inside])
      | some e => exact Part.decides (e.decides_resolve level (h.part (by simp))).map (by simp [inside])
  | .define function params body, h =>
    have shallow : Part.Shallow ⟨here, .params params⟩ := h.part (by simp)
    have defaults := decides_resolveDefaults level params fun e he => shallow.part (by simpa using he)
    have inner (bound : List String) : Decides (resolveBlock (bound :: scopes) false body)
        (∀ s ∈ body, Part.Sound ⟨here.inner, .stmt s⟩) :=
      decides_resolveBlock here.inner (by simp [Place.inner, level]) body fun s hs => h.part (by simp [hs])
    Part.decides ((decides_definition defaults fun bound => (inner bound).map).bind fun _ =>
      (Decides.name (h.length_le level) function).map) (by simp)

theorem decides_resolveBlock (here : Place) {scopes : Scopes} (level : scopes.length = here.level) :
    (ss : List Stmt) → (∀ s ∈ ss, Part.Shallow ⟨here, .stmt s⟩) →
    Decides (resolveBlock scopes here.inLoop ss) (∀ s ∈ ss, Part.Sound ⟨here, .stmt s⟩)
  | [], _ => (Decides.pure _).congr (by simp)
  | s :: ss, h =>
    have first := s.decides_resolve here level (h s (by simp))
    have rest := decides_resolveBlock here level ss fun s' hs' => h s' (by simp [hs'])
    (first.bind fun _ => rest.map).congr (by simp)

end

end Program

/-! ## Main result -/

namespace Code.Draft

open Program (Holds WellFormed forall_holds_iff)
open Resolving (Decides)

theorem resolveProgram_isOk_iff {d : Draft} {program : List Program.Stmt} :
    (∃ code d', d.resolveProgram program = (.ok code, d')) ↔
      ∃ code d', Program.resolveBlock [] false program d = .ok code d' := by
  constructor
  · rintro ⟨code, d', accepted⟩
    exact ⟨code, d', attempt_eq_ok accepted⟩
  · rintro ⟨code, d', ran⟩
    exact ⟨code, d', attempt_of_ok ran⟩

/-- Whatever was resolved before, a program with fewer than 65536 nested functions is accepted if and only if it is
well-formed. Otherwise there is a syntax error. -/
theorem accepts_iff_wellFormed (d : Draft) (program : List Program.Stmt)
    (shallow : ∀ q, Holds program q → q.place.level < 65536) :
    ((∃ code d', d.resolveProgram program = (.ok code, d')) ↔ WellFormed program) ∧
    (¬ WellFormed program → ∃ defect d', d.resolveProgram program = (.error defect, d') ∧
      (Cause.malformed defect).kind = .syntaxError) := by
  have bound : ∀ s ∈ program, Program.Part.Shallow ⟨.top, .stmt s⟩ :=
    forall_holds_iff.1 fun q hq => Nat.le_of_lt_succ (shallow q hq)
  have decided : Decides (Program.resolveBlock [] false program) (∀ s ∈ program, Program.Part.Sound ⟨.top, .stmt s⟩) :=
    Program.decides_resolveBlock .top rfl program bound
  have accepted : (∃ code d', d.resolveProgram program = (.ok code, d')) ↔ WellFormed program :=
    resolveProgram_isOk_iff.trans ((decided d).trans forall_holds_iff.symm)
  refine ⟨accepted, fun illFormed => ?_⟩
  cases resolved : d.resolveProgram program with
  | mk outcome d' =>
    cases outcome with
    | ok code => exact absurd (accepted.1 ⟨code, d', resolved⟩) illFormed
    | error defect => exact ⟨defect, d', rfl, rfl⟩

/-- A jump out of a loop that stands around the function of the jump and not in it, where it is never reached. -/
def strayJump : List Program.Stmt :=
  [.loop (.name "i") (.name "xs") [.define "f" [.required "x"] [.giveBack none, .leaveLoop]]]

theorem accepts_iff_wellFormed_strayJump : (∀ q, Holds strayJump q → q.place.level < 65536) ∧
    ¬ WellFormed strayJump ∧ ∃ defect d', resolveProgram {} strayJump = (.error defect, d') ∧
      (Cause.malformed defect).kind = .syntaxError := by
  have shallow : ∀ q, Holds strayJump q → q.place.level < 65536 := by
    rw [forall_holds_iff, strayJump]
    have leaf {q : Program.Part} (level : q.place.level < 65536) (parts : q.parts = []) :
        Program.Part.All (·.place.level < 65536) q := by
      refine .of_parts level ?_
      rw [parts]
      simp
    simp only [List.mem_singleton, forall_eq]
    refine .of_parts (by decide) ?_
    simp only [Program.Part.parts, Program.Stmt.parts, List.map, List.forall_mem_cons]
    refine ⟨leaf (by decide) rfl, leaf (by decide) rfl, .of_parts (by decide) ?_, by simp⟩
    simp only [Program.Part.parts, Program.Stmt.parts, List.map, List.forall_mem_cons]
    exact ⟨leaf (by decide) rfl, leaf (by decide) rfl, leaf (by decide) rfl, by simp⟩
  have illFormed : ¬ WellFormed strayJump := by
    intro proper
    have jump : Holds strayJump ⟨⟨1, false⟩, .stmt .leaveLoop⟩ := by
      refine ⟨_, List.mem_singleton_self _, ?_⟩
      refine .head (b := ⟨⟨0, true⟩, .stmt (.define "f" [.required "x"] [.giveBack none, .leaveLoop])⟩) ?_ (.single ?_)
      · simp [Program.Place.top, Program.Place.looped]
      · simp [Program.Place.inner]
    exact absurd (proper _ jump) (by simp)
  exact ⟨shallow, illFormed, (accepts_iff_wellFormed {} strayJump shallow).2 illFormed⟩

end Code.Draft

end Scriptlet
