import Scriptlet.Proofs.Code.ParamLists

/-!
# Parameter lists from their signatures

A signature counts the defaults of its positional parameters and numbers those of the keyword-only ones. Together
with the defaults themselves, in their order, it still holds the whole parameter list: the positional parameters,
of which the last ones have defaults, then the star if there was one, then the keyword-only parameters, and the
collector of further keyword arguments at the end. An accepted parameter list can have no other order.
-/

namespace Scriptlet

namespace Program

/-- The parameter that takes one argument and has a given default, if any. -/
def Param.single (p : String × Option Expr) : Param :=
  match p.2 with
  | Option.none => .required p.1
  | some e => .defaulted p.1 e

theorem Param.single_eq {p : Param} {q : String × Option Expr} (h : p.single? = some q) : Param.single q = p := by
  cases p <;> cases h <;> rfl

end Program

namespace Code

open Program (Param positionalParams keywordOnlyParams defaultsIn paramDefaults)

/-! ## The parameter list of a signature -/

namespace Signature

/-- The positional parameters; the first defaults belong to the last of them. -/
def positionalOf (s : Signature) (defaults : List Program.Expr) : List (String × Option Program.Expr) :=
  s.positional.zip (List.replicate s.requiredCount none ++ (defaults.take s.defaulted).map some)

/-- The keyword-only parameters, with the defaults that they have the numbers of. -/
def keywordOnlyOf (s : Signature) (defaults : List Program.Expr) : List (String × Option Program.Expr) :=
  s.keywordOnly.map fun p => (p.1, p.2.bind fun i => defaults[s.defaulted + i]?)

/-- The star; without a collector it is bare, and it is only there if something follows it. -/
def star (s : Signature) : List Param :=
  match s.rest with
  | some x => [.rest x]
  | none => if s.keywordOnly.isEmpty then [] else [.bareStar]

/-- The parameter list of a signature whose parameters have given defaults. -/
def params (s : Signature) (defaults : List Program.Expr) : List Param :=
  (s.positionalOf defaults).map .single ++ s.star ++ (s.keywordOnlyOf defaults).map .single ++
    s.keywords.toList.map .keywords

end Signature

/-! ## The order of an accepted list -/

namespace ParamScan

variable {function : String} {params : List Param}

/-- The star that a scan has seen. -/
def starSeen (s : ParamScan) : List Param :=
  if s.star then [s.groups.rest.elim .bareStar .rest] else []

theorem keywords_of_step {s s' : ParamScan} {p : Param}
    (h : s.step function p = .ok s') : s.groups.keywords = none := by
  unfold step at h
  split at h
  · cases h
  · assumption

theorem foldlM_cons_eq_ok {s s' : ParamScan} {p : Param} (h : (p :: params).foldlM (step function) s = .ok s') :
    ∃ s₁, step function s p = .ok s₁ ∧ params.foldlM (step function) s₁ = .ok s' := by
  rw [List.foldlM_cons] at h
  cases hp : step function s p with
  | error e => simp [hp, bind, Except.bind] at h
  | ok s₁ =>
    simp only [hp, bind, Except.bind] at h
    exact ⟨s₁, rfl, h⟩

/-- Nothing follows the collector of keyword arguments. -/
theorem nil_of_foldlM {s s' : ParamScan} {x : String}
    (hs : s.groups.keywords = some x) (h : params.foldlM (step function) s = .ok s') : params = [] ∧ s' = s := by
  cases params with
  | nil =>
    cases h
    exact ⟨rfl, rfl⟩
  | cons p params =>
    obtain ⟨s₁, hp, -⟩ := foldlM_cons_eq_ok h
    have none_seen := keywords_of_step hp
    rw [hs] at none_seen
    cases none_seen

/-- After the star come parameters that take one argument, and at the end the collector. -/
theorem order_after_star {s s' : ParamScan}
    (star : s.star = true) (first : s.groups.keywords = none) (h : params.foldlM (step function) s = .ok s') :
    params = (params.filterMap Param.single?).map .single ++ s'.groups.keywords.toList.map .keywords ∧
      s'.star = true ∧ s'.groups.rest = s.groups.rest := by
  induction params generalizing s with
  | nil =>
    cases h
    simp [star, first]
  | cons p params ih =>
    obtain ⟨s₁, hp, h⟩ := foldlM_cons_eq_ok h
    cases takes_of_step hp with
    | positional _ _ unseen =>
      rw [star] at unseen
      cases unseen
    | keywordOnly single =>
      obtain ⟨order, star', rest⟩ := ih (by exact star) (by exact first) h
      refine ⟨?_, star', rest⟩
      rw [List.filterMap_cons_some single, List.map_cons, List.cons_append, ← order,
        Param.single_eq single]
    | rest _ unseen =>
      rw [star] at unseen
      cases unseen
    | bareStar unseen =>
      rw [star] at unseen
      cases unseen
    | @keywords x _ _ =>
      obtain ⟨rfl, rfl⟩ := nil_of_foldlM (x := x) rfl h
      exact ⟨by simp [Param.single?], star, rfl⟩

/-- Before the star come positional parameters. -/
theorem order_before_star {s s' : ParamScan}
    (star : s.star = false) (first : s.groups.keywords = none) (rest : s.groups.rest = none)
    (h : params.foldlM (step function) s = .ok s') :
    params = (positionalParams params).map .single ++ s'.starSeen ++
        (keywordOnlyParams params).map .single ++ s'.groups.keywords.toList.map .keywords ∧
      (s'.star = false → s'.groups.rest = none ∧ keywordOnlyParams params = []) := by
  induction params generalizing s with
  | nil =>
    cases h
    simp [starSeen, star, first, rest, positionalParams, keywordOnlyParams]
  | cons p params ih =>
    obtain ⟨s₁, hp, h⟩ := foldlM_cons_eq_ok h
    rw [Program.positionalParams_cons, Program.keywordOnlyParams_cons]
    cases takes_of_step hp with
    | positional single =>
      have order := ih (by exact star) (by exact first) (by exact rest) h
      have noStar := Program.isStar_of_single single
      simp only [noStar, single, Bool.false_eq_true, if_false, Option.toList_some]
      refine ⟨?_, order.2⟩
      have same := order.1
      simp only [List.append_assoc, List.map_cons, Param.single_eq single, List.cons_append,
        List.nil_append] at same ⊢
      rw [← same]
    | keywordOnly _ _ seen =>
      rw [star] at seen
      cases seen
    | @rest x =>
      obtain ⟨order, seen, same⟩ := order_after_star rfl (by exact first) h
      have starred : s'.starSeen = [.rest x] := by simp [starSeen, seen, same]
      refine ⟨?_, fun unseen => absurd (seen.symm.trans unseen) (by simp)⟩
      rw [starred]
      simpa [Param.isStar] using order
    | bareStar =>
      obtain ⟨order, seen, same⟩ := order_after_star rfl (by exact first) h
      have starred : s'.starSeen = [.bareStar] := by simp [starSeen, seen, same, rest]
      refine ⟨?_, fun unseen => absurd (seen.symm.trans unseen) (by simp)⟩
      rw [starred]
      simpa [Param.isStar] using order
    | @keywords x _ _ =>
      obtain ⟨rfl, rfl⟩ := nil_of_foldlM (x := x) rfl h
      simp [starSeen, star, rest, positionalParams, keywordOnlyParams, Param.isStar, Param.single?]

end ParamScan

/-- The groups of an accepted list and the list itself. -/
theorem ParamGroups.order_of_ofParams {function : String} {params : List Param} {g : ParamGroups}
    (h : ParamGroups.ofParams function params = .ok g) :
    params = (positionalParams params).map .single ++ (Signature.ofGroups g).star ++
      (keywordOnlyParams params).map .single ++ g.keywords.toList.map .keywords := by
  have sorts := ParamGroups.sorts_of_ofParams h
  unfold ParamGroups.ofParams at h
  cases hf : params.foldlM (ParamScan.step function) {} with
  | error e => simp [hf, bind, Except.bind] at h
  | ok s =>
    simp only [hf, bind, Except.bind] at h
    split at h
    · cases h
    · rename_i follows
      cases h
      obtain ⟨order, unstarred⟩ := ParamScan.order_before_star rfl rfl rfl hf
      have empty : (Signature.ofGroups s.groups).keywordOnly.isEmpty = s.groups.keywordOnly.isEmpty := by
        rw [← List.isEmpty_map (f := Prod.fst), Signature.ofGroups, Signature.map_fst_numberDefaults,
          List.isEmpty_map]
      have same : (Signature.ofGroups s.groups).star = s.starSeen := by
        unfold Signature.star ParamScan.starSeen
        rw [empty]
        cases star : s.star with
        | false =>
          obtain ⟨rest, none_only⟩ := unstarred star
          simp [Signature.ofGroups, rest, sorts.keywordOnly, none_only, flagged]
        | true =>
          cases rest : s.groups.rest with
          | some x => simp [Signature.ofGroups, rest]
          | none =>
            simp only [star, rest, Bool.true_and, Option.isNone_none, Bool.not_eq_true] at follows
            simp [Signature.ofGroups, rest, follows]
      rw [same]
      exact order

/-! ## The defaults go back to their parameters -/

/-- If the parameters with a default come last, their names and the list of defaults give the parameters. -/
theorem DefaultsLast.zip_eq {ps : List (String × Option Program.Expr)} (h : DefaultsLast (flagged ps)) :
    (ps.map Prod.fst).zip (List.replicate (ps.length - (defaultsIn ps).length) none ++
      (defaultsIn ps).map fun p => some p.2) = ps := by
  induction ps with
  | nil => rfl
  | cons p ps ih =>
    obtain ⟨x, default⟩ := p
    obtain ⟨first, rest⟩ := List.pairwise_cons.1 h
    have fewer : (defaultsIn ps).length ≤ ps.length := List.length_filterMap_le _ _
    cases default with
    | none =>
      have same : defaultsIn ((x, none) :: ps) = defaultsIn ps := rfl
      rw [same, List.length_cons, Nat.succ_sub fewer, List.replicate_succ, List.map_cons,
        List.cons_append, List.zip_cons_cons, ih rest]
    | some e =>
      -- All parameters after this one have a default, too.
      have same : defaultsIn ((x, some e) :: ps) = (x, e) :: defaultsIn ps := rfl
      have all : (defaultsIn ps).length = ps.length := by
        have kept : (flagged ps).filter (·.2) = flagged ps :=
          List.filter_eq_self.2 fun q hq => first q hq rfl
        rw [← length_filter_flagged, kept, flagged, List.length_map]
      have tail := ih rest
      rw [all, Nat.sub_self, List.replicate_zero, List.nil_append] at tail
      rw [same, List.length_cons, List.length_cons, all, Nat.sub_self, List.replicate_zero,
        List.nil_append, List.map_cons, List.map_cons, List.zip_cons_cons, tail]

/-- The numbers of the defaults among the keyword-only parameters lead back to the defaults. -/
theorem Signature.map_numberDefaults (before : List Program.Expr) (ps : List (String × Option Program.Expr))
    (n : Nat) (k : Nat) (hk : before.length = k + n) :
    ((numberDefaults n (flagged ps)).map fun p =>
      (p.1, p.2.bind fun i => (before ++ (defaultsIn ps).map Prod.snd)[k + i]?)) = ps := by
  induction ps generalizing before n with
  | nil => rfl
  | cons p ps ih =>
    obtain ⟨x, default⟩ := p
    cases default with
    | none =>
      have same : defaultsIn ((x, none) :: ps) = defaultsIn ps := rfl
      have step : numberDefaults n (flagged ((x, none) :: ps)) =
          (x, none) :: numberDefaults n (flagged ps) := rfl
      rw [step, List.map_cons, same, ih before n hk]
      rfl
    | some e =>
      have same : defaultsIn ((x, some e) :: ps) = (x, e) :: defaultsIn ps := rfl
      have step : numberDefaults n (flagged ((x, some e) :: ps)) =
          (x, some n) :: numberDefaults (n + 1) (flagged ps) := rfl
      have tail := ih (before ++ [e]) (n + 1) (by simp [hk]; omega)
      rw [List.append_assoc, List.singleton_append] at tail
      rw [step, List.map_cons, same, List.map_cons, tail]
      simp [← hk]

/-- The signature of an accepted parameter list and the defaults of the list give back the list. -/
theorem Signature.params_ofGroups {function : String} {params : List Param} {g : ParamGroups}
    (h : ParamGroups.ofParams function params = .ok g) :
    (ofGroups g).params ((paramDefaults params).map Prod.snd) = params := by
  have sorts := ParamGroups.sorts_of_ofParams h
  have count : (ofGroups g).defaulted = (defaultsIn (positionalParams params)).length := by
    rw [ofGroups, sorts.positional, length_filter_flagged]
  have required : (ofGroups g).requiredCount =
      (positionalParams params).length - (defaultsIn (positionalParams params)).length := by
    rw [requiredCount, count, sorts.positional_ofGroups, List.length_map]
  have positional : (ofGroups g).positionalOf ((paramDefaults params).map Prod.snd) =
      positionalParams params := by
    have first : ((paramDefaults params).map Prod.snd).take (ofGroups g).defaulted =
        (defaultsIn (positionalParams params)).map Prod.snd := by
      have length : ((defaultsIn (positionalParams params)).map Prod.snd).length =
          (ofGroups g).defaulted := by
        rw [List.length_map, count]
      rw [paramDefaults, List.map_append, ← length, List.take_left]
    rw [positionalOf, first, List.map_map, required, sorts.positional_ofGroups]
    exact DefaultsLast.zip_eq (sorts.positional ▸ sorts.last)
  have keywordOnly : (ofGroups g).keywordOnlyOf ((paramDefaults params).map Prod.snd) =
      keywordOnlyParams params := by
    have numbered := map_numberDefaults ((defaultsIn (positionalParams params)).map Prod.snd)
      (keywordOnlyParams params) 0 (ofGroups g).defaulted (by simp [count])
    rw [keywordOnlyOf, paramDefaults, List.map_append]
    rw [← sorts.keywordOnly] at numbered
    exact numbered
  rw [Signature.params, positional, keywordOnly]
  exact (ParamGroups.order_of_ofParams h).symm

end Code

end Scriptlet
