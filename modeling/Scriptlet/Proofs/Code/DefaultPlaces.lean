import Scriptlet.Proofs.Code.ParamLists

/-!
# The places of defaults

The default values of a function stand in one list. A signature keeps the place of a positional default by counting
from the first parameter that has one, and the place of a keyword-only default by its number. If the positional
parameters with a default come last, this is the same as numbering the defaults of all parameters from left to
right.
-/

namespace Scriptlet.Code.Signature

/-- Names of which those from the place `required` on have defaults, at the places from `first` on. -/
def places (required first : Nat) (xs : List String) : List (String × Option Nat) :=
  xs.mapIdx fun i x => (x, if required ≤ i then some (i - required + first) else none)

theorem places_zero_cons (first : Nat) (x : String) (xs : List String) :
    places 0 first (x :: xs) = (x, some first) :: places 0 (first + 1) xs := by
  simp [places, List.mapIdx_cons, Nat.add_comm, Nat.add_left_comm]

theorem places_succ_cons (required first : Nat) (x : String) (xs : List String) :
    places (required + 1) first (x :: xs) = (x, none) :: places required first xs := by
  simp [places, List.mapIdx_cons, Nat.add_sub_add_right]

theorem named_eq (s : Signature) : s.named =
    places s.requiredCount 0 s.positional ++ s.keywordOnly.map fun p => (p.1, p.2.map (s.defaulted + ·)) :=
  rfl

/-- If all names have a default, the numbers of the defaults are their places. -/
theorem numberDefaults_of_all {ps : List (String × Bool)} (all : ∀ p ∈ ps, p.2 = true) (n : Nat) :
    numberDefaults n ps = places 0 n (ps.map Prod.fst) := by
  induction ps generalizing n with
  | nil => rfl
  | cons p ps ih =>
    obtain ⟨flag, others⟩ := List.forall_mem_cons.1 all
    obtain ⟨x, b⟩ := p
    cases flag
    rw [numberDefaults, ih others, List.map_cons, places_zero_cons]

theorem numberDefaults_of_last {ps : List (String × Bool)} (last : DefaultsLast ps) (n : Nat) :
    numberDefaults n ps = places (ps.length - (ps.filter (·.2)).length) n (ps.map Prod.fst) := by
  induction ps with
  | nil => rfl
  | cons p ps ih =>
    obtain ⟨first, others⟩ := List.pairwise_cons.1 last
    obtain ⟨x, b⟩ := p
    cases b with
    | true =>
      -- All names after one with a default have one, too.
      have all : ∀ q ∈ (x, true) :: ps, q.2 = true := List.forall_mem_cons.2 ⟨rfl, fun q hq => first q hq rfl⟩
      rw [numberDefaults_of_all all, List.filter_eq_self.2 all, Nat.sub_self]
    | false =>
      have fewer : (ps.filter (·.2)).length ≤ ps.length := List.length_filter_le _ _
      have skipped : ((x, false) :: ps).filter (·.2) = ps.filter (·.2) := rfl
      rw [numberDefaults, ih others, skipped, List.length_cons, Nat.succ_sub fewer, List.map_cons,
        places_succ_cons]

theorem numberDefaults_add (m n : Nat) (ps : List (String × Bool)) :
    numberDefaults (m + n) ps = (numberDefaults n ps).map fun p => (p.1, p.2.map (m + ·)) := by
  induction ps generalizing n with
  | nil => rfl
  | cons p ps ih =>
    obtain ⟨x, b⟩ := p
    cases b with
    | true => rw [numberDefaults, Nat.add_assoc, ih, numberDefaults]; rfl
    | false => rw [numberDefaults, ih, numberDefaults]; rfl

theorem numberDefaults_append (n : Nat) (ps qs : List (String × Bool)) :
    numberDefaults n (ps ++ qs) = numberDefaults n ps ++ numberDefaults (n + (ps.filter (·.2)).length) qs := by
  induction ps generalizing n with
  | nil => rfl
  | cons p ps ih =>
    obtain ⟨x, b⟩ := p
    cases b with
    | true =>
      rw [List.cons_append, numberDefaults, ih, numberDefaults, List.filter_cons_of_pos rfl, List.length_cons,
        Nat.add_right_comm, Nat.add_assoc]
      rfl
    | false => rw [List.cons_append, numberDefaults, ih, numberDefaults]; rfl

/-- The defaults of a signature are numbered from left to right. -/
theorem named_ofGroups {g : ParamGroups} (last : DefaultsLast g.positional) :
    (ofGroups g).named = numberDefaults 0 (g.positional ++ g.keywordOnly) := by
  have required : (ofGroups g).requiredCount = g.positional.length - (g.positional.filter (·.2)).length := by
    simp [requiredCount, ofGroups]
  have keywordOnly := numberDefaults_add (g.positional.filter (·.2)).length 0 g.keywordOnly
  rw [named_eq, required, numberDefaults_append, numberDefaults_of_last last, Nat.zero_add]
  rw [Nat.add_zero] at keywordOnly
  rw [keywordOnly]
  rfl

end Scriptlet.Code.Signature
