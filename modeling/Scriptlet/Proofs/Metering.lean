import Scriptlet.Budget.Meter

/-!
# What a meter with limits allows

An allocation is let through if after it neither the allocations nor the bytes exceed their limit, and a statement
if after it the statements and the time are not spent. What is spent stays spent.
-/

namespace Scriptlet.Budget

/-- More statements were asked for, or more time has passed, than the limits allow. -/
def Limits.Spent (l : Limits) (c : Counters) : Prop :=
  (∃ n ∈ l.maxOperations, n < c.operations) ∨ ∃ d ∈ l.maxDuration, d.nanos < c.readings

/-- The counters after a statement was counted. -/
structure Counters.Ticked (l : Limits) (c c' : Counters) : Prop where
  allocations : c'.allocations = c.allocations
  memory : c'.memory = c.memory
  operations : c'.operations = c.operations + if l.maxOperations.isSome then 1 else 0
  readings : c.readings ≤ c'.readings

theorem Limits.Spent.ticked {l : Limits} {c c' : Counters} (h : l.Spent c) (ticked : c.Ticked l c') : l.Spent c' := by
  have operations := ticked.operations
  obtain ⟨n, hn, spent⟩ | ⟨d, hd, spent⟩ := h
  · exact .inl ⟨n, hn, by omega⟩
  · exact .inr ⟨d, hd, Nat.lt_of_lt_of_le spent ticked.readings⟩

namespace Meter

theorem charge_full_eq_ok_iff {l : Limits} {c : Counters} {size : Nat} {k : Meter} :
    (full l c).charge size = .ok k ↔
      (∀ a ∈ l.maxAllocations, c.allocations < a) ∧ (∀ b ∈ l.maxMemory, c.memory + size ≤ b) ∧
        k = full l { c with allocations := c.allocations + 1, memory := c.memory + size } := by
  have few : l.maxAllocations.filter (· ≤ c.allocations) = none ↔
      ∀ a ∈ l.maxAllocations, c.allocations < a := by
    simp [Option.filter_eq_none_iff]
  have small : l.maxMemory.filter (· < c.memory + size) = none ↔
      ∀ b ∈ l.maxMemory, c.memory + size ≤ b := by
    simp [Option.filter_eq_none_iff]
  rw [← few, ← small]
  simp only [charge]
  cases l.maxAllocations.filter (· ≤ c.allocations) with
  | some limit => simp
  | none =>
    cases l.maxMemory.filter (· < c.memory + size) with
    | some limit => simp
    | none => simp [eq_comm]

/-- A statement is counted, and let through unless something is spent then. -/
theorem tick_full (l : Limits) (c : Counters) :
    ∃ c', (full l c).tick.2 = full l c' ∧ c.Ticked l c' ∧ ((full l c).tick.1 = none ↔ ¬ l.Spent c') := by
  generalize counted : (if l.maxOperations.isSome then { c with operations := c.operations + 1 } else c) = d
  have ticked : c.Ticked l d := by
    rw [← counted]
    split <;> exact ⟨rfl, rfl, by simp [*], Nat.le_refl _⟩
  simp only [tick, counted]
  cases operations : l.maxOperations.filter (· < d.operations) with
  | some n =>
    obtain ⟨hn, spent⟩ := Option.filter_eq_some_iff.1 operations
    have spent : l.Spent d := .inl ⟨n, hn, of_decide_eq_true spent⟩
    exact ⟨d, rfl, ticked, by simp [spent]⟩
  | none =>
    generalize read : (if l.maxDuration.isSome then { d with readings := d.readings + 1 } else d) = e
    have later : e = { d with readings := e.readings } ∧ d.readings ≤ e.readings := by
      rw [← read]
      split <;> simp
    have ticked' : c.Ticked l e := by
      rw [later.1]
      exact ⟨ticked.allocations, ticked.memory, ticked.operations, Nat.le_trans ticked.readings later.2⟩
    cases time : l.maxDuration.filter (·.nanos < e.readings) with
    | some limit =>
      obtain ⟨hd, spent⟩ := Option.filter_eq_some_iff.1 time
      have spent : l.Spent e := .inr ⟨limit, hd, of_decide_eq_true spent⟩
      exact ⟨e, rfl, ticked', by simp [spent]⟩
    | none =>
      have unspent : ¬ l.Spent e := by
        rintro (⟨n, hn, spent⟩ | ⟨limit, hd, spent⟩)
        · rw [later.1] at spent
          simpa [spent] using Option.filter_eq_none_iff.1 operations n hn
        · simpa [spent] using Option.filter_eq_none_iff.1 time limit hd
      exact ⟨e, rfl, ticked', by simp [unspent]⟩

end Meter

end Scriptlet.Budget
