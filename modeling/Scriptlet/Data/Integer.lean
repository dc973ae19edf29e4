/-!
# Integers of the language

The language's integers are the 64-bit signed words, but its arithmetic never wraps around: the result of an
operation is the mathematical one, which is kept only if it has a word. `Int64.toInt` is the view of a word as
a mathematical integer.
-/

namespace Scriptlet

/-- An integer of the language. -/
abbrev Integer := Int64

namespace Integer

/-- The least integer of the language. -/
def least : Int := -9223372036854775808

/-- The greatest integer of the language. -/
def greatest : Int := 9223372036854775807

/-- The word of a mathematical integer, if it is in range. -/
def ofInt? (n : Int) : Option Integer :=
  if least ≤ n ∧ n ≤ greatest then some (Int64.ofInt n) else none

/-- The decimal digits of an integer, with a minus sign if it is negative. -/
def text (n : Integer) : String := toString n.toInt

theorem toInt_of_ofInt? {n : Int} {w : Integer} (h : ofInt? n = some w) : w.toInt = n := by
  unfold ofInt? at h
  split at h
  · rename_i hr
    obtain rfl := Option.some.inj h
    simp only [least, greatest] at hr
    exact Int64.toInt_ofInt_of_le (by omega) (by omega)
  · simp at h

theorem ofInt?_toInt (n : Integer) : ofInt? n.toInt = some n := by
  have lower := n.le_toInt
  have upper := n.toInt_lt
  unfold ofInt? least greatest
  rw [if_pos (by omega), Int64.ofInt_toInt]

theorem ofInt?_eq_none_iff {n : Int} : ofInt? n = none ↔ n < least ∨ greatest < n := by
  unfold ofInt?
  split <;> rename_i h
  · simp; omega
  · simp; omega

end Integer

end Scriptlet
