import Mathlib.Data.Rat.Floor
import Mathlib.Tactic.Linarith
import Scriptlet.Value.Arithmetic

/-!
# Integer arithmetic is exact

On integers an operator gives the mathematical result if that has a word, and fails otherwise; it never gives anything
else. Division starts from the quotient and the remainder that words have, which are rounded toward zero, and corrects
them by signs. None of its steps goes out of range, so nothing ever wraps around.
-/

namespace Scriptlet

open Fault (Cause Kind)
open Program (Operator)

/-- The mathematical result of an operator. There is none if it divides by zero. -/
def Program.Operator.result? (op : Operator) (a b : ℤ) : Option ℤ :=
  match op with
  | .add => some (a + b)
  | .sub => some (a - b)
  | .mul => some (a * b)
  | .floorDiv => if b = 0 then none else some ⌊(a : ℚ) / b⌋
  | .mod => if b = 0 then none else some (a - b * ⌊(a : ℚ) / b⌋)

/-! ## Rounding -/

/-- A remainder of the quotient that is rounded down: it is smaller than the divisor, and on the same side of zero. -/
def FloorRemainder (b r : ℤ) : Prop := 0 ≤ r ∧ r < b ∨ b < r ∧ r ≤ 0

theorem floor_div_of_remainder {a b q r : ℤ} (split : a = b * q + r) (floor : FloorRemainder b r) :
    ⌊(a : ℚ) / b⌋ = q := by
  have cast : (a : ℚ) = b * q + r := by exact_mod_cast split
  rw [Int.floor_eq_iff]
  rcases floor with ⟨low, high⟩ | ⟨low, high⟩
  · have pos : (0 : ℚ) < b := by exact_mod_cast lt_of_le_of_lt low high
    have low' : (0 : ℚ) ≤ r := by exact_mod_cast low
    have high' : (r : ℚ) < b := by exact_mod_cast high
    rw [le_div_iff₀ pos, div_lt_iff₀ pos]
    constructor <;> linarith
  · have neg : (b : ℚ) < 0 := by exact_mod_cast lt_of_lt_of_le low high
    have low' : (b : ℚ) < r := by exact_mod_cast low
    have high' : (r : ℚ) ≤ 0 := by exact_mod_cast high
    rw [le_div_iff_of_neg neg, div_lt_iff_of_neg neg]
    constructor <;> linarith

theorem FloorRemainder.bounds {b r : ℤ} (floor : FloorRemainder b r) : (r = 0 ∨ r.sign = b.sign) ∧ |r| < |b| := by
  rcases floor with ⟨low, high⟩ | ⟨low, high⟩
  · have pos : 0 < b := lt_of_le_of_lt low high
    refine ⟨?_, by rwa [abs_of_nonneg low, abs_of_pos pos]⟩
    rcases eq_or_lt_of_le low with zero | above
    · exact .inl zero.symm
    · exact .inr (by rw [Int.sign_eq_one_of_pos above, Int.sign_eq_one_of_pos pos])
  · have neg : b < 0 := lt_of_lt_of_le low high
    refine ⟨?_, by rw [abs_of_nonpos high, abs_of_neg neg]; omega⟩
    rcases eq_or_lt_of_le high with zero | below
    · exact .inl zero
    · exact .inr (by rw [Int.sign_eq_neg_one_of_neg below, Int.sign_eq_neg_one_of_neg neg])

/-- The truncated remainder is smaller than the divisor and on the side of the dividend. -/
theorem tmod_bounds {b : ℤ} (a : ℤ) (nonzero : b ≠ 0) :
    (a.tmod b).natAbs < b.natAbs ∧ (0 ≤ a → 0 ≤ a.tmod b) ∧ (a ≤ 0 → a.tmod b ≤ 0) := by
  refine ⟨?_, Int.tmod_nonneg b, fun below => ?_⟩
  · rw [Int.natAbs_tmod]
    exact Nat.mod_lt _ (Int.natAbs_pos.2 nonzero)
  · have turned := Int.tmod_nonneg b (Int.neg_nonneg_of_nonpos below)
    rw [Int.neg_tmod] at turned
    omega

/-- Where rounding toward zero has gone up, one less is the quotient rounded down; elsewhere nothing has to change. -/
theorem floorRemainder_of_tmod {a b : ℤ} (nonzero : b ≠ 0) :
    if a.tmod b ≠ 0 ∧ (a < 0 ↔ 0 < b) then FloorRemainder b (a.tmod b + b) else FloorRemainder b (a.tmod b) := by
  obtain ⟨small, above, below⟩ := tmod_bounds a nonzero
  unfold FloorRemainder
  split <;> omega

theorem two_le_natAbs_of_tmod {a b : ℤ} (nonzero : b ≠ 0) (rest : a.tmod b ≠ 0) : 2 ≤ b.natAbs := by
  have remainder : (a.tmod b).natAbs = a.natAbs % b.natAbs := Int.natAbs_tmod a b
  by_contra small
  have one : b.natAbs = 1 := by omega
  rw [one, Nat.mod_one] at remainder
  omega

/-- A division that leaves something at least halves its dividend. -/
theorem natAbs_tdiv_le_half {a b : ℤ} (nonzero : b ≠ 0) (rest : a.tmod b ≠ 0) : (a.tdiv b).natAbs ≤ a.natAbs / 2 := by
  rw [Int.natAbs_tdiv]
  exact Nat.div_le_div_left (two_le_natAbs_of_tmod nonzero rest) (by decide)

namespace Integer

variable {m n : Integer}

/-! ## Words -/

/-- A mathematical integer has a word. -/
def InRange (x : ℤ) : Prop := least ≤ x ∧ x ≤ greatest

theorem inRange_toInt (n : Integer) : InRange n.toInt := by
  have low := n.le_toInt
  have high := n.toInt_lt
  unfold InRange least greatest
  omega

theorem toInt_ofInt {x : ℤ} (range : InRange x) : (Int64.ofInt x).toInt = x := by
  unfold InRange least greatest at range
  exact Int64.toInt_ofInt_of_le (by omega) (by omega)

theorem toInt_add_of_inRange (range : InRange (m.toInt + n.toInt)) : (m + n).toInt = m.toInt + n.toInt := by
  rw [← toInt_ofInt range, Int64.ofInt_add, Int64.ofInt_toInt, Int64.ofInt_toInt]

theorem toInt_sub_of_inRange (range : InRange (m.toInt - n.toInt)) : (m - n).toInt = m.toInt - n.toInt := by
  rw [← toInt_ofInt range, Int64.ofInt_sub, Int64.ofInt_toInt, Int64.ofInt_toInt]

theorem toInt_ne_zero (nonzero : n ≠ 0) : n.toInt ≠ 0 := by
  rw [← Int64.toInt_zero]
  exact mt Int64.toInt_inj.1 nonzero

/-! ## The steps of a division -/

theorem inRange_of_floorRemainder {r : ℤ} (floor : FloorRemainder n.toInt r) : InRange r := by
  have divisor := inRange_toInt n
  unfold InRange least greatest at divisor ⊢
  rcases floor with ⟨low, high⟩ | ⟨low, high⟩ <;> omega

/-- If something remains, the quotient has room on both sides. -/
theorem inRange_tdiv (nonzero : n ≠ 0) (rest : m.toInt.tmod n.toInt ≠ 0) :
    InRange (m.toInt.tdiv n.toInt) ∧ InRange (m.toInt.tdiv n.toInt - 1) := by
  have half := natAbs_tdiv_le_half (toInt_ne_zero nonzero) rest
  have dividend := inRange_toInt m
  unfold InRange least greatest at dividend ⊢
  omega

theorem tmod_eq_zero_of_quotient? (nonzero : n ≠ 0) (none : quotient? m n = none) : m.toInt.tmod n.toInt = 0 := by
  by_contra rest
  have range := (inRange_tdiv nonzero rest).1
  rw [quotient?, ofInt?_eq_none_iff] at none
  unfold InRange at range
  omega

theorem toInt_remainder (nonzero : n ≠ 0) : ((remainder? m n).getD 0).toInt = m.toInt.tmod n.toInt := by
  unfold remainder?
  cases quotient : quotient? m n with
  | none => exact (tmod_eq_zero_of_quotient? nonzero quotient).symm
  | some q => exact Int64.toInt_mod m n

theorem roundedUp_iff (r side : Integer) (nonzero : n ≠ 0) :
    roundedUp r side n ↔ r.toInt ≠ 0 ∧ (side.toInt < 0 ↔ 0 < n.toInt) := by
  have divisor := toInt_ne_zero nonzero
  have zero : r = 0 ↔ r.toInt = 0 := by rw [← Int64.toInt_inj, Int64.toInt_zero]
  have sign : 0 < n.toInt ↔ ¬ n.toInt < 0 := by omega
  simp only [roundedUp, Bool.and_eq_true, bne_iff_ne, ne_eq, decide_eq_decide, Int64.lt_iff_toInt_lt, Int64.toInt_zero,
    zero, sign]
  tauto

/-- The two tests of whether rounding has gone up agree: what remains is on the side of the dividend. -/
theorem roundedUp_remainder_iff (nonzero : n ≠ 0) :
    roundedUp ((remainder? m n).getD 0) ((remainder? m n).getD 0) n ↔ roundedUp (m % n) m n := by
  obtain ⟨-, above, below⟩ := tmod_bounds m.toInt (toInt_ne_zero nonzero)
  rw [roundedUp_iff _ _ nonzero, roundedUp_iff _ _ nonzero, toInt_remainder nonzero, Int64.toInt_mod]
  omega

/-- None of the steps that a division takes on words wraps around: what remains, the quotient less one and the sum of
what remains and the divisor are the mathematical ones wherever they are taken. -/
structure StepsExact (m n : Integer) : Prop where
  remainder : n ≠ 0 → ((remainder? m n).getD 0).toInt = m.toInt.tmod n.toInt ∧ (m % n).toInt = m.toInt.tmod n.toInt
  quotient : ∀ q, n ≠ 0 → quotient? m n = some q → q.toInt = m.toInt.tdiv n.toInt ∧
    (roundedUp (m % n) m n → (q - 1).toInt = q.toInt - 1)
  sum : ∀ r, n ≠ 0 → (remainder? m n).getD 0 = r → roundedUp r r n → (r + n).toInt = r.toInt + n.toInt

theorem stepsExact (m n : Integer) : StepsExact m n where
  remainder nonzero := ⟨toInt_remainder nonzero, Int64.toInt_mod m n⟩
  quotient q nonzero some := by
    have same : q.toInt = m.toInt.tdiv n.toInt := toInt_of_ofInt? some
    refine ⟨same, fun up => toInt_sub_of_inRange ?_⟩
    rw [roundedUp_iff _ _ nonzero, Int64.toInt_mod] at up
    rw [same, Int64.toInt_one]
    exact (inRange_tdiv nonzero up.1).2
  sum r nonzero same up := by
    subst same
    rw [roundedUp_remainder_iff nonzero, roundedUp_iff _ _ nonzero, Int64.toInt_mod] at up
    have floor := floorRemainder_of_tmod (a := m.toInt) (toInt_ne_zero nonzero)
    rw [if_pos up] at floor
    apply toInt_add_of_inRange
    rw [toInt_remainder nonzero]
    exact inRange_of_floorRemainder floor

/-! ## Operators -/

variable {op : Operator} {x : ℤ}

theorem exact_toInt (op : Operator) (m n w : Integer) : exact op m n w.toInt = .ok w := by
  rw [exact, ofInt?_toInt]

theorem apply_floorDiv (nonzero : n ≠ 0) : apply .floorDiv m n = exact .floorDiv m n ⌊(m.toInt : ℚ) / n.toInt⌋ := by
  have split : m.toInt = n.toInt * m.toInt.tdiv n.toInt + m.toInt.tmod n.toInt := (Int.mul_tdiv_add_tmod ..).symm
  have floor := floorRemainder_of_tmod (a := m.toInt) (toInt_ne_zero nonzero)
  have test := roundedUp_iff (m % n) m nonzero
  rw [Int64.toInt_mod] at test
  simp only [apply, nonzero, if_false]
  cases quotient : quotient? m n with
  | none =>
    -- The quotient is the greatest integer and one more. Nothing remains, so rounding does not bring it back.
    have rest := tmod_eq_zero_of_quotient? nonzero quotient
    rw [rest] at split floor
    rw [if_neg fun up => up.1 rfl] at floor
    rw [floor_div_of_remainder split floor, exact]
    unfold quotient? at quotient
    rw [quotient]
  | some q =>
    obtain ⟨same, less⟩ := (stepsExact m n).quotient q nonzero quotient
    by_cases up : roundedUp (m % n) m n
    · rw [if_pos (test.1 up)] at floor
      have down : ⌊(m.toInt : ℚ) / n.toInt⌋ = (q - 1).toInt := by
        rw [less up, same]
        exact floor_div_of_remainder (by linarith) floor
      rw [down, exact_toInt]
      exact congrArg Except.ok (if_pos up)
    · rw [if_neg (mt test.2 up)] at floor
      have kept : ⌊(m.toInt : ℚ) / n.toInt⌋ = q.toInt := by
        rw [same]
        exact floor_div_of_remainder split floor
      rw [kept, exact_toInt]
      exact congrArg Except.ok (if_neg up)

theorem apply_mod (nonzero : n ≠ 0) :
    ∃ w : Integer, apply .mod m n = .ok w ∧ w.toInt = m.toInt - n.toInt * ⌊(m.toInt : ℚ) / n.toInt⌋ ∧
      FloorRemainder n.toInt w.toInt := by
  have split : m.toInt = n.toInt * m.toInt.tdiv n.toInt + m.toInt.tmod n.toInt := (Int.mul_tdiv_add_tmod ..).symm
  have floor := floorRemainder_of_tmod (a := m.toInt) (toInt_ne_zero nonzero)
  have test := roundedUp_iff (m % n) m nonzero
  rw [Int64.toInt_mod, ← roundedUp_remainder_iff nonzero] at test
  have remainder := toInt_remainder (m := m) nonzero
  have sum := (stepsExact m n).sum _ nonzero rfl
  have ran : apply .mod m n = .ok (if roundedUp ((remainder? m n).getD 0) ((remainder? m n).getD 0) n
      then (remainder? m n).getD 0 + n else (remainder? m n).getD 0) := by
    simp only [apply, nonzero, if_false]
  generalize (remainder? m n).getD 0 = r at test remainder sum ran
  by_cases up : roundedUp r r n
  · rw [if_pos (test.1 up)] at floor
    rw [if_pos up] at ran
    refine ⟨r + n, ran, ?_⟩
    rw [sum up, remainder]
    refine ⟨?_, floor⟩
    rw [floor_div_of_remainder (q := m.toInt.tdiv n.toInt - 1) (by linarith) floor]
    linarith
  · rw [if_neg (mt test.2 up)] at floor
    rw [if_neg up] at ran
    refine ⟨r, ran, ?_⟩
    rw [remainder]
    refine ⟨?_, floor⟩
    rw [floor_div_of_remainder split floor]
    linarith

/-- If an operator has a mathematical result, it gives this result or overflows. -/
theorem apply_eq_exact (some : op.result? m.toInt n.toInt = some x) : apply op m n = exact op m n x := by
  have divides (zero : ¬ n.toInt = 0) : n ≠ 0 := by
    rintro rfl
    exact zero Int64.toInt_zero
  cases op with
  | add =>
    cases some
    rfl
  | sub =>
    cases some
    rfl
  | mul =>
    cases some
    rfl
  | floorDiv =>
    simp only [Operator.result?] at some
    split at some
    · cases some
    · rename_i zero
      cases some
      exact apply_floorDiv (divides zero)
  | mod =>
    simp only [Operator.result?] at some
    split at some
    · cases some
    · rename_i zero
      cases some
      obtain ⟨w, ran, same, -⟩ := apply_mod (m := m) (divides zero)
      rw [ran, ← same, exact_toInt]

theorem result?_eq_none_iff {a b : ℤ} : op.result? a b = none ↔ (op = .floorDiv ∨ op = .mod) ∧ b = 0 := by
  cases op <;> simp [Operator.result?]

theorem apply_zero (divides : op = .floorDiv ∨ op = .mod) : apply op m 0 = .error .divisionByZero := by
  rcases divides with rfl | rfl <;> rfl

/-- Applied to two integers, an operator gives the word of `x`, and the heap stays as it is. -/
def Gives (h : Heap) (op : Operator) (m n : Integer) (x : ℤ) : Prop :=
  ∃ w : Integer, w.toInt = x ∧ Value.binary op (.int m) (.int n) h = .ok (.int w) h

/-- Applied to two integers, an operator raises an exception of a kind, and the heap stays as it is. -/
def Raises (h : Heap) (op : Operator) (m n : Integer) (kind : Kind) : Prop :=
  ∃ e : Exception, e.kind = kind ∧ Value.binary op (.int m) (.int n) h = .error (.raised e) h

theorem binary_of_ok {w : Integer} (h : Heap) (ran : apply op m n = .ok w) :
    Value.binary op (.int m) (.int n) h = .ok (.int w) h := by
  simp only [Value.binary, Heap.inspect, ran, Value.ofArithmetic]

theorem binary_of_error {cause : Cause} (h : Heap) (ran : apply op m n = .error cause) :
    Value.binary op (.int m) (.int n) h = .error (.ofCause cause) h := by
  simp only [Value.binary, Heap.inspect, ran, Value.ofArithmetic]
  rfl

theorem Gives.unique {h : Heap} {y : ℤ} (first : Gives h op m n x) (second : Gives h op m n y) : x = y := by
  obtain ⟨w, rfl, ran⟩ := first
  obtain ⟨w', rfl, ran'⟩ := second
  cases ran.symm.trans ran'
  rfl

theorem Raises.unique {h : Heap} {kind kind' : Kind} (first : Raises h op m n kind) (second : Raises h op m n kind') :
    kind = kind' := by
  obtain ⟨e, rfl, ran⟩ := first
  obtain ⟨e', rfl, ran'⟩ := second
  cases ran.symm.trans ran'
  rfl

theorem Gives.not_raises {h : Heap} {kind : Kind} (gives : Gives h op m n x) : ¬ Raises h op m n kind := by
  rintro ⟨e, -, ran⟩
  obtain ⟨w, -, ran'⟩ := gives
  cases ran.symm.trans ran'

theorem gives_or_raises (h : Heap) (some : op.result? m.toInt n.toInt = some x) :
    (InRange x ∧ Gives h op m n x) ∨ (¬ InRange x ∧ Raises h op m n .overflowError) := by
  have ran := apply_eq_exact some
  by_cases range : InRange x
  · rw [← toInt_ofInt range, exact_toInt] at ran
    exact .inl ⟨range, _, toInt_ofInt range, binary_of_ok h ran⟩
  · have none : ofInt? x = none := if_neg range
    rw [exact, none] at ran
    exact .inr ⟨range, _, rfl, binary_of_error h ran⟩

theorem raises_zeroDivision_iff (h : Heap) (op : Operator) (m n : Integer) :
    Raises h op m n .zeroDivisionError ↔ (op = .floorDiv ∨ op = .mod) ∧ n = 0 := by
  constructor
  · intro raises
    cases result : op.result? m.toInt n.toInt with
    | none =>
      obtain ⟨divides, zero⟩ := result?_eq_none_iff.1 result
      exact ⟨divides, Int64.toInt_inj.1 (zero.trans Int64.toInt_zero.symm)⟩
    | some x =>
      rcases gives_or_raises h result with ⟨-, gives⟩ | ⟨-, overflows⟩
      · exact absurd raises gives.not_raises
      · cases raises.unique overflows
  · rintro ⟨divides, rfl⟩
    exact ⟨_, rfl, binary_of_error h (apply_zero divides)⟩

end Integer

open Integer (Gives Raises InRange StepsExact)

/-- For all integers: an operator that has a mathematical result gives it if it has a word, and overflows if not. It
raises a division by zero exactly if it divides by zero. Otherwise a remainder is always given; it is zero or on the
side of the divisor, smaller than it, and what is left of the dividend by the quotient, if there is one. No step on the
way leaves the range of words. -/
theorem integer_arithmetic_exact (h : Heap) (m n : Integer) :
    (∀ op x, op.result? m.toInt n.toInt = some x →
      (InRange x ↔ Gives h op m n x) ∧ (¬ InRange x ↔ Raises h op m n .overflowError)) ∧
    (∀ op, Raises h op m n .zeroDivisionError ↔ (op = .floorDiv ∨ op = .mod) ∧ n = 0) ∧
    (n ≠ 0 → ∃ r, Gives h .mod m n r ∧ r = m.toInt - n.toInt * ⌊(m.toInt : ℚ) / n.toInt⌋ ∧
      (r = 0 ∨ r.sign = n.toInt.sign) ∧ |r| < |n.toInt| ∧
      ∀ q, Gives h .floorDiv m n q → m.toInt = q * n.toInt + r) ∧
    StepsExact m n := by
  refine ⟨fun op x some => ?_, fun op => Integer.raises_zeroDivision_iff h op m n, fun nonzero => ?_,
    Integer.stepsExact m n⟩
  · rcases Integer.gives_or_raises h some with ⟨range, gives⟩ | ⟨range, raises⟩
    · have calm : ¬ Raises h op m n .overflowError := gives.not_raises
      exact ⟨iff_of_true range gives, iff_of_false (not_not_intro range) calm⟩
    · have none : ¬ Gives h op m n x := fun gives => gives.not_raises raises
      exact ⟨iff_of_false range none, iff_of_true range raises⟩
  · obtain ⟨w, ran, same, floor⟩ := Integer.apply_mod (m := m) nonzero
    obtain ⟨sign, small⟩ := floor.bounds
    refine ⟨w.toInt, ⟨w, rfl, Integer.binary_of_ok h ran⟩, same, sign, small, fun q gives => ?_⟩
    have result : Operator.floorDiv.result? m.toInt n.toInt = some ⌊(m.toInt : ℚ) / n.toInt⌋ :=
      if_neg (Integer.toInt_ne_zero nonzero)
    rcases Integer.gives_or_raises h result with ⟨-, floored⟩ | ⟨-, raises⟩
    · rw [gives.unique floored, same]
      ring
    · exact absurd raises gives.not_raises

/-- The least integer divided by minus one: the quotient overflows, and nothing remains. -/
theorem integer_arithmetic_exact_least :
    let h : Heap := .empty (.depthOnly none)
    let m : Integer := Int64.minValue
    Operator.floorDiv.result? m.toInt (-1) = some 9223372036854775808 ∧ Raises h .floorDiv m (-1) .overflowError ∧
    Gives h .mod m (-1) 0 := by
  intro h m
  have result : Operator.floorDiv.result? m.toInt (-1) = some 9223372036854775808 := by decide +kernel
  have remainder : m.toInt - -1 * ⌊(m.toInt : ℚ) / (-1 : ℤ)⌋ = 0 := by decide +kernel
  have out : ¬ InRange 9223372036854775808 := fun range => absurd range.2 (by decide)
  obtain ⟨results, -, division, -⟩ := integer_arithmetic_exact h m (-1)
  obtain ⟨r, gives, same, -⟩ := division (by decide)
  rw [same] at gives
  exact ⟨result, (results .floorDiv _ result).2.1 out, remainder ▸ gives⟩

end Scriptlet
