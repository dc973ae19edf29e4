import Mathlib.Data.List.Nodup
import Scriptlet.Proofs.Code.Signatures

/-!
# Accepted parameter lists

The parameters before the first star of a parameter list are positional, those after it are given by keyword only.
An accepted list is sorted into its groups in this way: no name occurs twice, and of the positional parameters
those with a default come last. So the defaults of the list, in its order, are those of the last positional
parameters followed by those of the keyword-only ones.
-/

namespace Scriptlet

namespace Program

/-- Whether the parameters after this one are given by keyword only. -/
def Param.isStar : Param → Bool
  | .rest _ => true
  | .bareStar => true
  | _ => false

/-- The name and the default of a parameter that takes one argument. -/
def Param.single? : Param → Option (String × Option Expr)
  | .required x => some (x, Option.none)
  | .defaulted x e => some (x, some e)
  | _ => Option.none

/-- The positional parameters of a list, each with its default if it has one. -/
def positionalParams (params : List Param) : List (String × Option Expr) :=
  (params.takeWhile fun p => !p.isStar).filterMap Param.single?

/-- The keyword-only parameters of a list, each with its default if it has one. -/
def keywordOnlyParams (params : List Param) : List (String × Option Expr) :=
  (params.dropWhile fun p => !p.isStar).filterMap Param.single?

/-- The parameters that have a default, with the default. -/
def defaultsIn (ps : List (String × Option Expr)) : List (String × Expr) :=
  ps.filterMap fun p => p.2.map (p.1, ·)

/-- The defaults of a parameter list: those of the positional parameters and then those of the keyword-only
ones. -/
def paramDefaults (params : List Param) : List (String × Expr) :=
  defaultsIn (positionalParams params) ++ defaultsIn (keywordOnlyParams params)

theorem positionalParams_cons (p : Param) (ps : List Param) :
    positionalParams (p :: ps) = if p.isStar then [] else p.single?.toList ++ positionalParams ps := by
  cases p <;> rfl

theorem keywordOnlyParams_cons (p : Param) (ps : List Param) :
    keywordOnlyParams (p :: ps) =
      if p.isStar then ps.filterMap Param.single? else keywordOnlyParams ps := by
  cases p <;> rfl

theorem isStar_of_single {p : Param} {q : String × Option Expr} (h : p.single? = some q) : p.isStar = false := by
  cases p <;> first | rfl | cases h

/-- A call gives an argument for a parameter: by position, or by keyword. -/
def Supplied (params : List Param) (args : Call.Args) (x : String) : Prop :=
  (∃ i < args.positional.length, (positionalParams params)[i]?.map Prod.fst = some x) ∨
    x ∈ args.keywords.map Prod.fst

instance (params : List Param) (args : Call.Args) (x : String) : Decidable (Supplied params args x) :=
  inferInstanceAs (Decidable ((∃ i < _, _) ∨ _))

/-- The defaults of a parameter list stand in the order of the list. -/
theorem paramDefaults_eq (params : List Param) :
    paramDefaults params = defaultsIn (params.filterMap Param.single?) := by
  have split : (params.takeWhile fun p => !p.isStar) ++ (params.dropWhile fun p => !p.isStar) = params :=
    List.takeWhile_append_dropWhile
  rw [paramDefaults, positionalParams, keywordOnlyParams, defaultsIn, defaultsIn,
    ← List.filterMap_append, ← List.filterMap_append, split]
  rfl

end Program

namespace Code

open Fault (Malformed)
open Program (Param positionalParams keywordOnlyParams)

/-- Parameters with the flags that say whether they have a default. -/
def flagged (ps : List (String × Option Program.Expr)) : List (String × Bool) :=
  ps.map fun p => (p.1, p.2.isSome)

/-- In a list of parameters, those with a default come last. -/
def DefaultsLast (ps : List (String × Bool)) : Prop :=
  ps.Pairwise fun p q => p.2 = true → q.2 = true

theorem DefaultsLast.snoc {ps : List (String × Bool)} (h : DefaultsLast ps) (x : String) {b : Bool}
    (hb : b = false → ∀ q ∈ ps, q.2 = false) : DefaultsLast (ps ++ [(x, b)]) := by
  refine List.pairwise_append.2 ⟨h, List.pairwise_singleton _ _, fun p hp q hq flag => ?_⟩
  rw [List.mem_singleton.1 hq]
  cases b with
  | true => rfl
  | false => exact absurd (hb rfl p hp) (by simp [flag])

namespace ParamScan

variable {function : String} {p : Param}

/-- What one more parameter does to a scan that goes on. -/
inductive Takes (s : ParamScan) : Param → ParamScan → Prop where
  | positional {p : Param} {x : String} {default : Option Program.Expr} (single : p.single? = some (x, default))
    (fresh : x ∉ s.seen) (star : s.star = false)
    (last : default = none → ∀ q ∈ s.groups.positional, q.2 = false) :
    Takes s p ⟨{ s.groups with positional := s.groups.positional ++ [(x, default.isSome)] },
      s.seen ++ [x], s.star⟩
  | keywordOnly {p : Param} {x : String} {default : Option Program.Expr} (single : p.single? = some (x, default))
    (fresh : x ∉ s.seen) (star : s.star = true) :
    Takes s p ⟨{ s.groups with keywordOnly := s.groups.keywordOnly ++ [(x, default.isSome)] },
      s.seen ++ [x], s.star⟩
  | rest {x : String} (fresh : x ∉ s.seen) (star : s.star = false) :
    Takes s (.rest x) ⟨{ s.groups with rest := some x }, s.seen ++ [x], true⟩
  | bareStar (star : s.star = false) : Takes s .bareStar { s with star := true }
  | keywords {x : String} (fresh : x ∉ s.seen) (first : s.groups.keywords = none) :
    Takes s (.keywords x) ⟨{ s.groups with keywords := some x }, s.seen ++ [x], s.star⟩

theorem takes_of_plain {s s' : ParamScan} {x : String}
    {default : Option Program.Expr} (single : p.single? = some (x, default)) (fresh : x ∉ s.seen)
    (h : plain function { s with seen := s.seen ++ [x] } x default.isSome = .ok s') : s.Takes p s' := by
  unfold plain at h
  cases star : s.star with
  | true =>
    simp only [star, if_true] at h
    cases h
    rw [← star]
    exact .keywordOnly single fresh star
  | false =>
    simp only [star, Bool.false_eq_true, if_false] at h
    split at h
    · cases h
    · rename_i last
      cases h
      rw [← star]
      refine .positional single fresh star fun required q hq => ?_
      subst required
      have flags : s.groups.positional.any (·.2) = false := by simpa using last
      simpa using List.any_eq_false.1 flags q hq

theorem takes_of_step {s s' : ParamScan} (h : s.step function p = .ok s') : s.Takes p s' := by
  unfold step at h
  split at h
  · cases h
  rename_i first
  cases p with
  | required x =>
    simp only [Param.name?] at h
    split at h
    · cases h
    · rename_i fresh
      exact takes_of_plain (p := .required x) rfl fresh h
  | defaulted x e =>
    simp only [Param.name?] at h
    split at h
    · cases h
    · rename_i fresh
      exact takes_of_plain (p := .defaulted x e) rfl fresh h
  | rest x =>
    simp only [Param.name?, place] at h
    split at h
    · cases h
    · rename_i fresh
      split at h
      · cases h
      · rename_i star
        cases h
        exact .rest fresh (by simpa using star)
  | bareStar =>
    simp only [Param.name?, place] at h
    split at h
    · cases h
    · rename_i star
      cases h
      exact .bareStar (by simpa using star)
  | keywords x =>
    simp only [Param.name?, place] at h
    split at h
    · cases h
    · rename_i fresh
      cases h
      exact .keywords fresh first

/-- What a scan knows after some more parameters. -/
structure Scans (s : ParamScan) (params : List Param) (s' : ParamScan) : Prop where
  positional : s'.groups.positional =
    s.groups.positional ++ if s.star then [] else flagged (positionalParams params)
  keywordOnly : s'.groups.keywordOnly = s.groups.keywordOnly ++
    flagged (if s.star then params.filterMap Param.single? else keywordOnlyParams params)
  seen : s'.seen = s.seen ++ params.filterMap (·.name?)
  nodup : s.seen.Nodup → s'.seen.Nodup
  names : (s.star = false → s.groups.rest = none) →
    s'.groups.names.Perm (s.groups.names ++ params.filterMap (·.name?))
  last : DefaultsLast s.groups.positional → DefaultsLast s'.groups.positional

theorem Takes.name {s s' : ParamScan} {p : Param} (h : s.Takes p s') :
    s'.seen = s.seen ++ p.name?.toList ∧ ∀ x ∈ p.name?, x ∉ s.seen := by
  cases h with
  | @positional p x default single fresh =>
    cases p <;> cases single <;> exact ⟨rfl, by simpa [Param.name?] using fresh⟩
  | @keywordOnly p x default single fresh =>
    cases p <;> cases single <;> exact ⟨rfl, by simpa [Param.name?] using fresh⟩
  | rest fresh => exact ⟨rfl, by simpa [Param.name?] using fresh⟩
  | bareStar => exact ⟨by simp [Param.name?], by simp [Param.name?]⟩
  | keywords fresh => exact ⟨rfl, by simpa [Param.name?] using fresh⟩

theorem Takes.names {s s' : ParamScan} (h : s.Takes p s') (rest : s.star = false → s.groups.rest = none) :
    s'.groups.names.Perm (s.groups.names ++ p.name?.toList) ∧
      (s'.star = false → s'.groups.rest = none) := by
  have name {x : String} {default : Option Program.Expr} (single : p.single? = some (x, default)) :
      p.name? = some x := by
    cases p <;> cases single <;> rfl
  cases h with
  | positional single fresh star =>
    refine ⟨?_, rest⟩
    rw [name single, List.perm_iff_count]
    intro y
    simp [ParamGroups.names, List.count_append, List.count_cons]
    omega
  | keywordOnly single fresh star =>
    refine ⟨?_, rest⟩
    rw [name single, List.perm_iff_count]
    intro y
    simp [ParamGroups.names, List.count_append, List.count_cons]
  | @rest x fresh star =>
    refine ⟨?_, Bool.noConfusion⟩
    rw [List.perm_iff_count]
    intro y
    simp [ParamGroups.names, List.count_append, List.count_cons, rest star, Param.name?]
    omega
  | bareStar star => exact ⟨by simp [Param.name?], Bool.noConfusion⟩
  | @keywords x fresh first =>
    refine ⟨?_, rest⟩
    rw [List.perm_iff_count]
    intro y
    simp [ParamGroups.names, List.count_append, List.count_cons, first, Param.name?]

theorem Takes.scans {s s₁ s' : ParamScan} {params : List Param} (h : s.Takes p s₁)
    (rest : s₁.Scans params s') : s.Scans (p :: params) s' where
  positional := by
    rw [rest.positional, Program.positionalParams_cons]
    cases h with
    | positional single _ star =>
      simp [star, Program.isStar_of_single single, single, flagged]
    | keywordOnly _ _ star => simp [star]
    | rest _ star => simp [star, Param.isStar, flagged]
    | bareStar star => simp [star, Param.isStar, flagged]
    | keywords _ _ => simp [Param.isStar, Param.single?]
  keywordOnly := by
    rw [rest.keywordOnly, Program.keywordOnlyParams_cons]
    cases h with
    | positional single _ star => simp [star, Program.isStar_of_single single]
    | keywordOnly single _ star => simp [star, single, flagged]
    | rest _ star => simp [star, Param.isStar]
    | bareStar star => simp [star, Param.isStar]
    | keywords _ _ => simp [Param.isStar, Param.single?, List.filterMap_cons]
  seen := by
    rw [rest.seen, h.name.1]
    cases hp : p.name? <;> simp [hp]
  nodup hn := by
    refine rest.nodup ?_
    rw [h.name.1, List.nodup_append]
    refine ⟨hn, by cases p.name? <;> simp, fun x hx y hy heq => ?_⟩
    exact h.name.2 y (Option.mem_toList.1 hy) (heq ▸ hx)
  names hr := by
    obtain ⟨perm, hr'⟩ := h.names hr
    refine (rest.names hr').trans ((perm.append_right _).trans ?_)
    cases hp : p.name? <;> simp [hp]
  last hl := by
    refine rest.last ?_
    cases h with
    | positional single _ _ last => exact hl.snoc _ fun required => last (by simpa using required)
    | _ => exact hl

theorem scans_of_foldlM {params : List Param} {s s' : ParamScan}
    (h : params.foldlM (step function) s = .ok s') : s.Scans params s' := by
  induction params generalizing s with
  | nil =>
    cases h
    exact ⟨by simp [positionalParams, flagged], by simp [keywordOnlyParams, flagged], by simp, id,
      fun _ => by simp, id⟩
  | cons p params ih =>
    rw [List.foldlM_cons] at h
    cases hp : step function s p with
    | error e => simp [hp, bind, Except.bind] at h
    | ok s₁ =>
      simp only [hp, bind, Except.bind] at h
      exact (takes_of_step hp).scans (ih h)

end ParamScan

/-- The groups of an accepted parameter list. -/
structure ParamGroups.Sorts (params : List Param) (g : ParamGroups) : Prop where
  positional : g.positional = flagged (positionalParams params)
  keywordOnly : g.keywordOnly = flagged (keywordOnlyParams params)
  nodup : g.names.Nodup
  last : DefaultsLast g.positional

theorem ParamGroups.sorts_of_ofParams {function : String} {params : List Param} {g : ParamGroups}
    (h : ParamGroups.ofParams function params = .ok g) : g.Sorts params := by
  unfold ParamGroups.ofParams at h
  cases hf : params.foldlM (ParamScan.step function) {} with
  | error e => simp [hf, bind, Except.bind] at h
  | ok s =>
    have scan := ParamScan.scans_of_foldlM hf
    have hg : s.groups = g := by
      simp only [hf, bind, Except.bind] at h
      split at h
      · cases h
      · exact Except.ok.inj h
    subst hg
    have names : s.groups.names.Perm (params.filterMap (·.name?)) := scan.names fun _ => rfl
    have seen : s.seen = params.filterMap (·.name?) := scan.seen
    exact ⟨scan.positional, scan.keywordOnly,
      names.nodup_iff.2 (seen ▸ scan.nodup List.nodup_nil), scan.last List.Pairwise.nil⟩

/-! ## The places of the defaults -/

open Program (defaultsIn paramDefaults)

theorem length_filter_flagged (ps : List (String × Option Program.Expr)) :
    ((flagged ps).filter (·.2)).length = (defaultsIn ps).length := by
  induction ps with
  | nil => rfl
  | cons p ps ih =>
    obtain ⟨x, default⟩ := p
    cases default with
    | none => simpa [flagged, defaultsIn, List.filterMap_cons] using ih
    | some e => simpa [flagged, defaultsIn, List.filterMap_cons] using ih

/-- If the parameters with a default come last, the last parameters are those with a default. -/
theorem DefaultsLast.getElem? {ps : List (String × Option Program.Expr)} (h : DefaultsLast (flagged ps))
    {k : Nat} {x : String} {e : Program.Expr} (hk : (defaultsIn ps)[k]? = some (x, e)) :
    ps[ps.length - (defaultsIn ps).length + k]? = some (x, some e) := by
  induction ps generalizing k with
  | nil => simp [defaultsIn] at hk
  | cons p ps ih =>
    obtain ⟨y, default⟩ := p
    obtain ⟨first, rest⟩ := List.pairwise_cons.1 h
    have fewer : (defaultsIn ps).length ≤ ps.length := List.length_filterMap_le _ _
    cases default with
    | none =>
      have same : defaultsIn ((y, none) :: ps) = defaultsIn ps := rfl
      rw [same] at hk ⊢
      rw [List.length_cons, Nat.succ_sub fewer, Nat.succ_add, List.getElem?_cons_succ]
      exact ih rest hk
    | some d =>
      -- All parameters after this one have a default, too.
      have same : defaultsIn ((y, some d) :: ps) = (y, d) :: defaultsIn ps := rfl
      have all : (defaultsIn ps).length = ps.length := by
        have kept : (flagged ps).filter (·.2) = flagged ps :=
          List.filter_eq_self.2 fun q hq => first q hq rfl
        rw [← length_filter_flagged, kept, flagged, List.length_map]
      rw [same] at hk ⊢
      simp only [List.length_cons, all, Nat.sub_self, Nat.zero_add] at ih ⊢
      cases k with
      | zero => simpa using hk
      | succ k => simpa using ih rest (by simpa using hk)

theorem Signature.getElem?_numberDefaults {ps : List (String × Option Program.Expr)} (n : Nat) {k : Nat}
    {x : String} {e : Program.Expr} (hk : (defaultsIn ps)[k]? = some (x, e)) :
    ∃ j : Nat, (numberDefaults n (flagged ps))[j]? = some (x, some (n + k)) := by
  induction ps generalizing n k with
  | nil => simp [defaultsIn] at hk
  | cons p ps ih =>
    obtain ⟨y, default⟩ := p
    cases default with
    | none =>
      obtain ⟨j, hj⟩ := ih n hk
      exact ⟨j + 1, hj⟩
    | some d =>
      have same : defaultsIn ((y, some d) :: ps) = (y, d) :: defaultsIn ps := rfl
      rw [same] at hk
      cases k with
      | zero =>
        cases hk
        exact ⟨0, rfl⟩
      | succ k =>
        obtain ⟨j, hj⟩ := ih (n + 1) hk
        refine ⟨j + 1, ?_⟩
        rw [Nat.add_right_comm, Nat.add_assoc] at hj
        exact hj

theorem Signature.map_fst_named (s : Signature) :
    s.named.map Prod.fst = s.positional ++ s.keywordOnly.map Prod.fst := by
  rw [named, List.map_append, List.map_map]
  congr 1
  refine List.ext_getElem? fun i => ?_
  simp [Function.comp_def]

namespace ParamGroups.Sorts

variable {params : List Param} {g : ParamGroups}

theorem positional_ofGroups (h : g.Sorts params) :
    (Signature.ofGroups g).positional = (positionalParams params).map Prod.fst := by
  simp [Signature.ofGroups, h.positional, flagged]

theorem nodup_named (h : g.Sorts params) : ((Signature.ofGroups g).named.map Prod.fst).Nodup := by
  have names := h.nodup
  rw [← names_ofGroups, Signature.names] at names
  rw [Signature.map_fst_named]
  refine names.sublist ?_
  refine List.Sublist.trans ?_ (List.sublist_append_left _ _)
  exact (List.sublist_append_left _ _).append_right _

/-- The default of a parameter stands at the same place among all defaults of the list as its value does among
the values that a call finds. -/
theorem named_of_default (h : g.Sorts params) {k : Nat} {x : String} {e : Program.Expr}
    (hk : (paramDefaults params)[k]? = some (x, e)) :
    ∃ i : Nat, (Signature.ofGroups g).named[i]? = some (x, some k) := by
  have count : (Signature.ofGroups g).defaulted = (defaultsIn (positionalParams params)).length := by
    simp only [Signature.ofGroups, h.positional, length_filter_flagged]
  have length : (Signature.ofGroups g).positional.length = (positionalParams params).length := by
    rw [h.positional_ofGroups, List.length_map]
  rw [paramDefaults, List.getElem?_append] at hk
  split at hk
  · rename_i hlt
    have place := DefaultsLast.getElem? (h.positional ▸ h.last) hk
    have required : (Signature.ofGroups g).requiredCount =
        (positionalParams params).length - (defaultsIn (positionalParams params)).length := by
      rw [Signature.requiredCount, count, length]
    rw [← required] at place
    obtain ⟨bound, -⟩ := List.getElem?_eq_some_iff.1 place
    refine ⟨(Signature.ofGroups g).requiredCount + k, ?_⟩
    rw [Signature.named, List.getElem?_append_left (by rwa [List.length_mapIdx, length]),
      List.getElem?_mapIdx, h.positional_ofGroups, List.getElem?_map, place]
    simp
  · rename_i hge
    obtain ⟨j, hj⟩ := Signature.getElem?_numberDefaults 0 hk
    refine ⟨(Signature.ofGroups g).positional.length + j, ?_⟩
    have number : (Signature.ofGroups g).keywordOnly[j]? =
        some (x, some (k - (defaultsIn (positionalParams params)).length)) := by
      simpa [Signature.ofGroups, h.keywordOnly] using hj
    rw [Signature.named, List.getElem?_append_right (by simp), List.length_mapIdx,
      Nat.add_sub_cancel_left, List.getElem?_map, number, count]
    simp only [Option.map_some]
    congr 3
    omega

end ParamGroups.Sorts

end Code

end Scriptlet
