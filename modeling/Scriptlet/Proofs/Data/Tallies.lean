import Scriptlet.Data.OrderedMap

/-!
# Tallies

A tally gives a count to each of some things. Its total does not depend on the order of the things, things that were
never counted add nothing to it, and counting one more thing adds one.
-/

namespace Scriptlet

variable {κ : Type}

/-- The sum of the counts of a tally. -/
def tallied (counts : List (κ × Nat)) : Nat := counts.foldr (fun c n => c.2 + n) 0

@[simp]
theorem tallied_nil : tallied ([] : List (κ × Nat)) = 0 := rfl

@[simp]
theorem tallied_cons (c : κ × Nat) (counts : List (κ × Nat)) : tallied (c :: counts) = c.2 + tallied counts := rfl

theorem tallied_perm {counts counts' : List (κ × Nat)} (perm : counts.Perm counts') :
    tallied counts = tallied counts' := by
  induction perm with
  | nil => rfl
  | cons c _ ih => rw [tallied_cons, tallied_cons, ih]
  | swap c d counts =>
    simp only [tallied_cons]
    omega
  | trans _ _ ih ih' => exact ih.trans ih'

theorem tallied_filter_pos (counts : List (κ × Nat)) : tallied (counts.filter (0 < ·.2)) = tallied counts := by
  induction counts with
  | nil => rfl
  | cons c counts ih =>
    by_cases pos : 0 < c.2
    · rw [List.filter_cons_of_pos (by simpa using pos), tallied_cons, tallied_cons, ih]
    · rw [List.filter_cons_of_neg (by simpa using pos), ih, tallied_cons]
      omega

/-- One more of a thing that may have been counted before. -/
theorem tallied_put [DecidableEq κ] (k : κ) (counts : List (κ × Nat)) :
    tallied (OrderedMap.put k (((counts.find? fun c => c.1 = k).map Prod.snd).getD 0 + 1) counts) =
      tallied counts + 1 := by
  induction counts with
  | nil => rfl
  | cons c counts ih =>
    by_cases same : c.1 = k
    · simp [OrderedMap.put, same]
      omega
    · simp only [OrderedMap.put, same, if_false, List.find?_cons, decide_false, tallied_cons, ih]
      omega

end Scriptlet
