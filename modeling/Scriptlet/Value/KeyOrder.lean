import Scriptlet.Value.Key
import Std.Data.ExtTreeMap

/-!
# The order of keys

A linear order of dictionary keys: first by sort, then by content. The language does not show it; maps find
their keys by it, and two keys are the same exactly when they compare as equal.
-/

namespace Scriptlet.Key

/-- The place of a key's sort among the sorts. -/
def rank : Key → Nat
  | .none => 0
  | .bool _ => 1
  | .int _ => 2
  | .str _ => 3
  | .tuple _ => 4

mutual

/-- The order of keys: first by sort, then by content. -/
def order : Key → Key → Ordering
  | .bool a, .bool b => compare a b
  | .int a, .int b => compare a b
  | .str a, .str b => compare a b
  | .tuple as, .tuple bs => orderItems as bs
  | a, b => compare a.rank b.rank

/-- The order of lists of keys, by the first items that differ; a list comes after its beginnings. -/
def orderItems : List Key → List Key → Ordering
  | [], [] => .eq
  | [], _ :: _ => .lt
  | _ :: _, [] => .gt
  | a :: as, b :: bs => (order a b).then (orderItems as bs)

end

instance : Ord Key := ⟨order⟩

mutual

theorem order_eq_iff : (a b : Key) → (order a b = .eq ↔ a = b)
  | .none, b => by cases b <;> simp [order, rank]
  | .bool _, b => by cases b <;> simp [order, rank]
  | .int _, b => by cases b <;> simp [order, rank]
  | .str _, b => by cases b <;> simp [order, rank]
  | .tuple as, .tuple bs => by simp [order, orderItems_eq_iff as bs]
  | .tuple _, .none => by simp [order, rank]
  | .tuple _, .bool _ => by simp [order, rank]
  | .tuple _, .int _ => by simp [order, rank]
  | .tuple _, .str _ => by simp [order, rank]

theorem orderItems_eq_iff : (as bs : List Key) → (orderItems as bs = .eq ↔ as = bs)
  | [], bs => by cases bs <;> simp [orderItems]
  | _ :: _, [] => by simp [orderItems]
  | a :: as, b :: bs => by
    simp [orderItems, Ordering.then_eq_eq, order_eq_iff a b, orderItems_eq_iff as bs]

end

mutual

theorem order_swap : (a b : Key) → order a b = (order b a).swap
  | .none, b => by cases b <;> simp [order, rank] <;> decide
  | .bool a, b => by cases b <;> simp [order, rank, Std.OrientedOrd.eq_swap (a := a)] <;> decide
  | .int a, b => by cases b <;> simp [order, rank, Std.OrientedOrd.eq_swap (a := a)] <;> decide
  | .str a, b => by cases b <;> simp [order, rank, Std.OrientedOrd.eq_swap (a := a)] <;> decide
  | .tuple as, .tuple bs => by simp [order, orderItems_swap as bs]
  | .tuple _, .none => by simp [order, rank]; decide
  | .tuple _, .bool _ => by simp [order, rank]; decide
  | .tuple _, .int _ => by simp [order, rank]; decide
  | .tuple _, .str _ => by simp [order, rank]; decide

theorem orderItems_swap : (as bs : List Key) → orderItems as bs = (orderItems bs as).swap
  | [], bs => by cases bs <;> simp [orderItems]
  | _ :: _, [] => by simp [orderItems]
  | a :: as, b :: bs => by
    simp [orderItems, Ordering.swap_then, order_swap a b, orderItems_swap as bs]

end

mutual

theorem order_lt_trans : (a b c : Key) → order a b = .lt → order b c = .lt → order a c = .lt
  | .none, b, c => by cases b <;> cases c <;> simp [order, rank, Nat.compare_eq_lt]
  | .bool a, b, c => by
    cases b <;> cases c <;> simp [order, rank, Nat.compare_eq_lt]
    exact Std.TransCmp.lt_trans
  | .int a, b, c => by
    cases b <;> cases c <;> simp [order, rank, Nat.compare_eq_lt]
    exact Std.TransCmp.lt_trans
  | .str a, b, c => by
    cases b <;> cases c <;> simp [order, rank, Nat.compare_eq_lt]
    exact Std.TransCmp.lt_trans
  | .tuple as, b, c => by
    have ih := orderItems_lt_trans as
    cases b <;> cases c <;> simp [order, rank, Nat.compare_eq_lt]
    exact ih _ _

theorem orderItems_lt_trans : (as bs cs : List Key) → orderItems as bs = .lt →
    orderItems bs cs = .lt → orderItems as cs = .lt
  | [], bs, cs => by cases bs <;> cases cs <;> simp [orderItems]
  | _ :: _, [], _ => by simp [orderItems]
  | _ :: _, _ :: _, [] => by simp [orderItems]
  | a :: as, b :: bs, c :: cs => by
    simp only [orderItems]
    have ih := order_lt_trans a b c
    have ihs := orderItems_lt_trans as bs cs
    have hab := order_eq_iff a b
    have hbc := order_eq_iff b c
    grind [Ordering.then]

end

instance : Std.LawfulEqOrd Key where
  compare_self {a} := (order_eq_iff a a).2 rfl
  eq_of_compare {a b} := (order_eq_iff a b).1

instance : Std.TransOrd Key where
  eq_swap {a b} := order_swap a b
  isLE_trans {a b c} h₁ h₂ := by
    change (order a c).isLE
    replace h₁ : order a b = .lt ∨ order a b = .eq := Ordering.isLE_iff_eq_lt_or_eq_eq.1 h₁
    replace h₂ : order b c = .lt ∨ order b c = .eq := Ordering.isLE_iff_eq_lt_or_eq_eq.1 h₂
    rw [order_eq_iff] at h₁ h₂
    rw [Ordering.isLE_iff_eq_lt_or_eq_eq, order_eq_iff]
    rcases h₁ with h₁ | rfl
    · rcases h₂ with h₂ | rfl
      · exact .inl (order_lt_trans a b c h₁ h₂)
      · exact .inl h₁
    · exact h₂

instance : DecidableEq Key := fun a b => decidable_of_iff _ (order_eq_iff a b)

end Scriptlet.Key
