import Scriptlet.Proofs.Code.ParamOrder

/-!
# The rules for parameter lists

A parameter list is accepted if and only if it keeps five rules, each of which can be read off the list alone: no two
parameters have one name, before the star no parameter without a default follows one with a default, there is at most
one star, nothing follows the collector of keyword arguments, and a bare star is followed by a parameter that is given
by keyword.
-/

namespace Scriptlet

namespace Program

def Param.isRequired : Param → Bool
  | .required _ => true
  | _ => false

def Param.isDefaulted : Param → Bool
  | .defaulted .. => true
  | _ => false

/-- The parameter collects further keyword arguments. -/
def Param.isCollector : Param → Bool
  | .keywords _ => true
  | _ => false

/-- The parameters before the first star. -/
def beforeStar (params : List Param) : List Param := params.takeWhile fun p => !p.isStar

/-- The rules for a parameter list. -/
structure ProperParams (params : List Param) : Prop where
  distinct : (params.filterMap (·.name?)).Nodup
  defaultsLast : (beforeStar params).Pairwise fun p q => p.isDefaulted → ¬ q.isRequired
  oneStar : params.countP (·.isStar) ≤ 1
  collectorLast : params.Pairwise fun p _ => ¬ p.isCollector
  starFollowed : .bareStar ∈ params → keywordOnlyParams params ≠ []

end Program

namespace Code

open Program (Param beforeStar keywordOnlyParams positionalParams ProperParams)

namespace ParamScan

variable {function : String} {s s₁ : ParamScan} {p : Param} {params : List Param}

/-- The rules for the parameters that follow those a scan has seen. -/
structure Allows (s : ParamScan) (params : List Param) : Prop where
  distinct : (s.seen ++ params.filterMap (·.name?)).Nodup
  defaultsLast : DefaultsLast (s.groups.positional ++ if s.star then [] else flagged (positionalParams params))
  oneStar : params.countP (·.isStar) + s.star.toNat ≤ 1
  collectorLast : params.Pairwise fun p _ => ¬ p.isCollector
  unclosed : params ≠ [] → s.groups.keywords = none

/-! ## One more parameter -/

theorem step_of_takes (unclosed : s.groups.keywords = none) (h : s.Takes p s₁) : s.step function p = .ok s₁ := by
  cases h with
  | @positional p x default single fresh star last =>
    cases p <;> cases single <;> simp_all [step, Param.name?, place, plain]
  | @keywordOnly p x default single fresh star =>
    cases p <;> cases single <;> simp_all [step, Param.name?, place, plain]
  | rest fresh star => simp [step, unclosed, Param.name?, fresh, place, star]
  | bareStar star => simp [step, unclosed, Param.name?, place, star]
  | keywords fresh first => simp [step, unclosed, Param.name?, fresh, place]

theorem Takes.seen_append (h : s.Takes p s₁) :
    s₁.seen ++ params.filterMap (·.name?) = s.seen ++ (p :: params).filterMap (·.name?) := by
  rw [h.name.1]
  cases name : p.name? <;> simp [name]

theorem Takes.positional_append (h : s.Takes p s₁) :
    (s₁.groups.positional ++ if s₁.star then [] else flagged (positionalParams params)) =
      s.groups.positional ++ if s.star then [] else flagged (positionalParams (p :: params)) := by
  rw [Program.positionalParams_cons]
  cases h with
  | positional single _ star => simp [star, Program.isStar_of_single single, single, flagged]
  | keywordOnly _ _ star => simp [star]
  | rest _ star => simp [star, Param.isStar, flagged]
  | bareStar star => simp [star, Param.isStar, flagged]
  | keywords _ _ => simp [Param.isStar, Param.single?]

theorem Takes.stars (h : s.Takes p s₁) : s₁.star.toNat = p.isStar.toNat + s.star.toNat := by
  cases h with
  | positional single => simp [Program.isStar_of_single single]
  | keywordOnly single => simp [Program.isStar_of_single single]
  | rest _ star => simp [star, Param.isStar]
  | bareStar star => simp [star, Param.isStar]
  | keywords => simp [Param.isStar]

theorem Takes.keywords_eq_none_iff (h : s.Takes p s₁) (unclosed : s.groups.keywords = none) :
    s₁.groups.keywords = none ↔ ¬ p.isCollector := by
  cases h with
  | @positional p x default single => cases p <;> cases single <;> simp [Param.isCollector, unclosed]
  | @keywordOnly p x default single => cases p <;> cases single <;> simp [Param.isCollector, unclosed]
  | rest => simp [Param.isCollector, unclosed]
  | bareStar => simp [Param.isCollector, unclosed]
  | keywords => simp [Param.isCollector]

theorem Takes.allows_iff (h : s.Takes p s₁) (unclosed : s.groups.keywords = none) :
    s.Allows (p :: params) ↔ s₁.Allows params := by
  have counts : (p :: params).countP (·.isStar) + s.star.toNat = params.countP (·.isStar) + s₁.star.toNat := by
    rw [h.stars, List.countP_cons]
    cases p.isStar with
    | true => simp; omega
    | false => simp
  have closing := h.keywords_eq_none_iff unclosed
  constructor
  · intro ⟨distinct, defaultsLast, oneStar, collectorLast, _⟩
    obtain ⟨first, rest⟩ := List.pairwise_cons.1 collectorLast
    refine ⟨h.seen_append ▸ distinct, h.positional_append ▸ defaultsLast, counts ▸ oneStar, rest, ?_⟩
    intro nonempty
    obtain ⟨q, hq⟩ := List.exists_mem_of_ne_nil _ nonempty
    exact closing.2 (first q hq)
  · intro ⟨distinct, defaultsLast, oneStar, collectorLast, unclosed₁⟩
    refine ⟨h.seen_append ▸ distinct, h.positional_append ▸ defaultsLast, counts ▸ oneStar, ?_, fun _ => unclosed⟩
    refine List.pairwise_cons.2 ⟨fun q hq => ?_, collectorLast⟩
    exact closing.1 (unclosed₁ (List.ne_nil_of_mem hq))

theorem Allows.exists_takes (h : s.Allows (p :: params)) : ∃ s₁, s.Takes p s₁ := by
  have fresh (x : String) (name : p.name? = some x) : x ∉ s.seen := by
    intro seen
    have apart := (List.nodup_append.1 h.distinct).2.2 x seen x
    simp [name] at apart
  have oneStar := h.oneStar
  cases star : s.star with
  | true =>
    cases p with
    | required x => exact ⟨_, .keywordOnly (p := .required x) rfl (fresh x rfl) star⟩
    | defaulted x e => exact ⟨_, .keywordOnly (p := .defaulted x e) rfl (fresh x rfl) star⟩
    | rest x => simp [star, Param.isStar] at oneStar
    | bareStar => simp [star, Param.isStar] at oneStar
    | keywords x => exact ⟨_, .keywords (fresh x rfl) (h.unclosed (by simp))⟩
  | false =>
    cases p with
    | required x =>
      refine ⟨_, .positional (p := .required x) rfl (fresh x rfl) star fun _ q hq => ?_⟩
      have later := (List.pairwise_append.1 h.defaultsLast).2.2 q hq (x, false)
      simpa [star, Program.positionalParams_cons, Param.isStar, Param.single?, flagged] using later
    | defaulted x e =>
      exact ⟨_, .positional (p := .defaulted x e) rfl (fresh x rfl) star fun required => by cases required⟩
    | rest x => exact ⟨_, .rest (fresh x rfl) star⟩
    | bareStar => exact ⟨_, .bareStar star⟩
    | keywords x => exact ⟨_, .keywords (fresh x rfl) (h.unclosed (by simp))⟩

/-! ## A whole list -/

/-- A scan gets through some parameters if and only if they keep the rules. -/
theorem foldlM_isOk_iff (tidy : s.seen.Nodup) (last : DefaultsLast s.groups.positional) :
    (∃ s', params.foldlM (step function) s = .ok s') ↔ s.Allows params := by
  induction params generalizing s with
  | nil =>
    have allowed : s.Allows [] :=
      ⟨by simpa using tidy, by simpa [positionalParams, flagged] using last, by cases s.star <;> simp, .nil,
        by simp⟩
    exact ⟨fun _ => allowed, fun _ => ⟨s, rfl⟩⟩
  | cons p params ih =>
    constructor
    · rintro ⟨s', h⟩
      obtain ⟨s₁, hp, h⟩ := foldlM_cons_eq_ok h
      have takes := takes_of_step hp
      have one := takes.scans (scans_of_foldlM (rfl : [].foldlM (step function) s₁ = .ok s₁))
      exact (takes.allows_iff (keywords_of_step hp)).2 ((ih (one.nodup tidy) (one.last last)).1 ⟨s', h⟩)
    · intro allowed
      obtain ⟨s₁, takes⟩ := allowed.exists_takes
      have unclosed := allowed.unclosed (by simp)
      have rest := (takes.allows_iff unclosed).1 allowed
      have one := takes.scans (scans_of_foldlM (rfl : [].foldlM (step function) s₁ = .ok s₁))
      obtain ⟨s', h⟩ := (ih (one.nodup tidy) (one.last last)).2 rest
      refine ⟨s', ?_⟩
      rw [List.foldlM_cons, step_of_takes unclosed takes]
      exact h

/-- The star that a scan has seen is bare if and only if there is a bare star in the list. -/
theorem bareStar_mem_iff {s' : ParamScan} (h : params.foldlM (step function) {} = .ok s') :
    .bareStar ∈ params ↔ s'.star ∧ s'.groups.rest = none := by
  obtain ⟨order, -⟩ := order_before_star rfl rfl rfl h
  have single (q : String × Option Program.Expr) : Param.single q ≠ .bareStar := by
    obtain ⟨x, default⟩ := q
    cases default <;> simp [Param.single]
  have seen : .bareStar ∈ params ↔ .bareStar ∈ s'.starSeen := by
    rw [order]
    simp [single]
  rw [seen, starSeen]
  cases s'.star <;> cases s'.groups.rest <;> simp

end ParamScan

theorem defaultsLast_positionalParams_iff {params : List Param} :
    DefaultsLast (flagged (positionalParams params)) ↔
      (beforeStar params).Pairwise fun p q => p.isDefaulted → ¬ q.isRequired := by
  unfold DefaultsLast flagged positionalParams
  rw [List.pairwise_map, List.pairwise_filterMap]
  refine List.Pairwise.iff fun p q => ?_
  cases p <;> cases q <;> simp [Param.single?, Param.isDefaulted, Param.isRequired]

/-- The parameter lists that are accepted are those that keep the rules. -/
theorem ParamGroups.ofParams_isOk_iff {function : String} {params : List Param} :
    (∃ g, ParamGroups.ofParams function params = .ok g) ↔ ProperParams params := by
  have scanned : (∃ s', params.foldlM (ParamScan.step function) {} = .ok s') ↔ ParamScan.Allows {} params :=
    ParamScan.foldlM_isOk_iff .nil .nil
  have rules : ParamScan.Allows {} params ∧ (.bareStar ∈ params → keywordOnlyParams params ≠ []) ↔
      ProperParams params := by
    constructor
    · intro ⟨allowed, followed⟩
      exact ⟨allowed.distinct, defaultsLast_positionalParams_iff.1 allowed.defaultsLast, allowed.oneStar, allowed.collectorLast,
        followed⟩
    · intro h
      exact ⟨⟨h.distinct, defaultsLast_positionalParams_iff.2 h.defaultsLast, h.oneStar, h.collectorLast, fun _ => rfl⟩,
        h.starFollowed⟩
  rw [← rules, ← scanned]
  unfold ParamGroups.ofParams
  cases hf : params.foldlM (ParamScan.step function) {} with
  | error e => simp [bind, Except.bind]
  | ok s =>
    have bare := ParamScan.bareStar_mem_iff hf
    have only : s.groups.keywordOnly = flagged (keywordOnlyParams params) := (ParamScan.scans_of_foldlM hf).keywordOnly
    have empty : s.groups.keywordOnly.isEmpty = (keywordOnlyParams params).isEmpty := by
      rw [only, flagged, List.isEmpty_map]
    simp only [bind, Except.bind, empty]
    rw [bare]
    cases s.star <;> cases s.groups.rest <;> cases keywordOnlyParams params <;>
      simp [pure, Except.pure, throw, throwThe, MonadExceptOf.throw]

end Code

end Scriptlet
