import Scriptlet.Proofs.Machine.Steps
import Scriptlet.Value.Augment
import Scriptlet.Value.Membership

/-!
# Operations on strings

A string stands in the program or lives on the heap, and what an operation does with it depends on its text alone.
With a string and a value that is no string, equality is false, and order and joining fail.
-/

namespace Scriptlet

open Heap (Cell)

namespace Value

variable {h : Heap} {v w : Value} {n : Nat}

section string

variable {s t : String}

theorem text?_of_cell {a : Address} (found : h.cell? a = some (.text s)) : (ref a).text? h = .ok (some s) := by
  simp only [text?, Heap.read_of_cell? found]
  rfl

/-- Only the object of a string has a text. -/
theorem text?_of_kind_ne {a : Address} {c : Cell} (found : h.cell? a = some c) (plain : c.kind ≠ .text) :
    (ref a).text? h = .ok Option.none := by
  simp only [text?, Heap.read_of_cell? found]
  cases c with
  | text s => exact absurd rfl plain
  | _ => rfl

/-- A string stands in the program or is the object of a string. All operations on a string come down to these cases. -/
theorem eq_text_or_read (string : v.text? h = .ok (some s)) :
    v = .text s ∨ ∃ a, v = .ref a ∧ h.read a = .ok (.text s) := by
  cases v with
  | text t => exact .inl (congrArg Value.text (Option.some.inj (Except.ok.inj string)))
  | ref a =>
    obtain ⟨c, read, string⟩ := Attempt.bind_eq_ok.1 string
    cases c with
    | text t =>
      cases string
      exact .inr ⟨a, rfl, read⟩
    | _ => cases string
  | _ => cases string

theorem type_of_text (string : v.text? h = .ok (some s)) : v.type h = .ok .string := by
  obtain rfl | ⟨a, rfl, read⟩ := eq_text_or_read string
  · rfl
  · simp only [type, read]
    rfl

theorem truthy_of_text (string : v.text? h = .ok (some s)) : v.truthy h = .ok (!s.isEmpty) := by
  obtain rfl | ⟨a, rfl, read⟩ := eq_text_or_read string
  · rfl
  · simp only [truthy, read]
    rfl

theorem items_of_text (string : v.text? h = .ok (some s)) : v.items h = raise (.notIterable .string) := by
  obtain rfl | ⟨a, rfl, read⟩ := eq_text_or_read string
  · rfl
  · simp only [items, read]
    rfl

/-- A string is found in a dictionary by its text. -/
theorem keyWithin_of_text (string : v.text? h = .ok (some s)) : v.keyWithin h (n + 1) = .ok (.str s) := by
  obtain rfl | ⟨a, rfl, read⟩ := eq_text_or_read string
  · rfl
  · simp only [keyWithin, read]
    rfl

theorem asIndex_of_text (string : v.text? h = .ok (some s)) : v.asIndex h = raise (.indexNotInteger .string) := by
  obtain rfl | ⟨a, rfl, read⟩ := eq_text_or_read string
  · rfl
  · simp only [asIndex, type, read]
    rfl

theorem item_of_text (string : v.text? h = .ok (some s)) (i : Value) :
    v.item h i = raise (.notSubscriptable .string) := by
  obtain rfl | ⟨a, rfl, read⟩ := eq_text_or_read string
  · rfl
  · simp only [item, read]
    rfl

theorem setItem_of_text (string : v.text? h = .ok (some s)) (i u : Value) :
    v.setItem i u h = .error (.ofCause (.noItemAssignment .string)) h := by
  obtain rfl | ⟨a, rfl, read⟩ := eq_text_or_read string
  · rfl
  · refine bind_of_error ?_
    simp only [Heap.inspect, read]
    rfl

/-- Strings are equal if their texts are, even when the same text lies in two objects. -/
theorem equalWithin_of_texts (hv : v.text? h = .ok (some s)) (hw : w.text? h = .ok (some t)) :
    v.equalWithin h (n + 1) w = .ok (s == t) := by
  unfold equalWithin
  by_cases same : v = w
  · subst same
    obtain rfl := Option.some.inj (Except.ok.inj (hv.symm.trans hw))
    rw [if_pos rfl, beq_self_eq_true]
    rfl
  · rw [if_neg same, hv, hw]
    rfl

/-- Strings are ordered by their texts. -/
theorem compareWithin_of_texts (hv : v.text? h = .ok (some s)) (hw : w.text? h = .ok (some t)) :
    v.compareWithin h (n + 1) w = .ok (Ord.compare s t) := by
  have contents : v.compareContents h (compareWithin h n) w = .ok (Ord.compare s t) := by
    unfold compareContents
    rw [hv, hw]
    rfl
  obtain rfl | ⟨a, rfl, -⟩ := eq_text_or_read hv
  · exact contents
  · exact contents

/-- Only two integers are calculated with, so a string is combined with whatever stands on its right. -/
theorem binary_of_text_left (string : v.text? h = .ok (some s)) (op : Program.Operator) (w : Value) :
    v.binary op w = v.combine op w := by
  obtain rfl | ⟨a, rfl, -⟩ := eq_text_or_read string
  · rfl
  · rfl

theorem binary_of_text_right (string : w.text? h = .ok (some s)) (op : Program.Operator) (v : Value) :
    v.binary op w = v.combine op w := by
  obtain rfl | ⟨a, rfl, -⟩ := eq_text_or_read string
  · cases v <;> rfl
  · cases v <;> rfl

/-- Joining two strings makes the object of a new one. -/
theorem joined_of_texts (hv : v.text? h = .ok (some s)) (hw : w.text? h = .ok (some t)) :
    v.joined h w = .ok (some (.text (s ++ t))) := by
  unfold joined
  rw [hv, hw]
  rfl

end string

/-! ## A string and another value -/

/-- Of two values just one is a string. -/
def OneString (h : Heap) (v w : Value) : Prop :=
  ∃ s t, v.text? h = .ok s ∧ w.text? h = .ok t ∧ s.isSome ≠ t.isSome

/-- A value is not a string and no string at once. -/
theorem OneString.ne (one : OneString h v w) : v ≠ w := by
  rintro rfl
  obtain ⟨s, t, hs, ht, differ⟩ := one
  cases Except.ok.inj (hs.symm.trans ht)
  exact differ rfl

theorem OneString.symm (one : OneString h v w) : OneString h w v := by
  obtain ⟨s, t, hs, ht, differ⟩ := one
  exact ⟨t, s, ht, hs, differ.symm⟩

/-- Whether a reference is to a string shows in the kind of its object. -/
theorem exists_read_of_text? {a : Address} {s : Option String} (text : (ref a).text? h = .ok s) :
    ∃ c, h.read a = .ok c ∧ (s.isSome = true ↔ c.kind = .text) := by
  obtain ⟨c, read, text⟩ := Attempt.bind_eq_ok.1 text
  refine ⟨c, read, ?_⟩
  cases c <;> cases text <;> simp only [Option.isSome, Cell.kind, reduceCtorEq]

theorem OneString.reads {a b : Address} (one : OneString h (.ref a) (.ref b)) :
    ∃ c d, h.read a = .ok c ∧ h.read b = .ok d ∧ ¬ (c.kind = .text ↔ d.kind = .text) := by
  obtain ⟨s, t, hs, ht, differ⟩ := one
  obtain ⟨c, hc, left⟩ := exists_read_of_text? hs
  obtain ⟨d, hd, right⟩ := exists_read_of_text? ht
  refine ⟨c, d, hc, hd, fun same => differ ?_⟩
  rw [Bool.eq_iff_iff, left, right, same]

/-- A string is equal to no other value. -/
theorem OneString.equalWithin (one : OneString h v w) : v.equalWithin h (n + 1) w = .ok false := by
  obtain ⟨s, t, hs, ht, differ⟩ := id one
  simp only [Value.equalWithin, if_neg one.ne, hs, ht, bind, Except.bind]
  split
  · exact absurd rfl differ
  split
  · obtain ⟨c, d, hc, hd, kinds⟩ := one.reads
    simp only [hc, hd]
    cases c <;> cases d <;> first | rfl | exact absurd Iff.rfl kinds
  · rfl

/-- A string is joined with no other value. -/
theorem OneString.joined (one : OneString h v w) : v.joined h w = .ok Option.none := by
  obtain ⟨s, t, hs, ht, differ⟩ := id one
  simp only [Value.joined, hs, ht, bind, Except.bind]
  split
  · exact absurd rfl differ
  split
  · obtain ⟨c, d, hc, hd, kinds⟩ := one.reads
    simp only [hc, hd]
    cases c <;> cases d <;> first | rfl | exact absurd Iff.rfl kinds
  · rfl

/-- A string and another value are not ordered, and the failure names the types of both. -/
theorem OneString.compareContents (one : OneString h v w) (cmp : Value → Value → Attempt Ordering) :
    v.compareContents h cmp w = (do raise (.notComparable (← v.type h) (← w.type h))) := by
  obtain ⟨s, t, hs, ht, differ⟩ := id one
  simp only [Value.compareContents, hs, ht, bind, Except.bind]
  split
  · exact absurd rfl differ
  split
  · obtain ⟨c, d, hc, hd, kinds⟩ := one.reads
    simp only [hc, hd, type, bind, Except.bind]
    cases c <;> cases d <;> first | rfl | exact absurd Iff.rfl kinds
  · rfl

theorem OneString.compareWithin (one : OneString h v w) :
    v.compareWithin h (n + 1) w = (do raise (.notComparable (← v.type h) (← w.type h))) := by
  rw [← one.compareContents (Value.compareWithin h n)]
  obtain ⟨s, t, hs, ht, differ⟩ := one
  have noStrings (hs : s = Option.none) (ht : t = Option.none) : False := differ (by rw [hs, ht])
  cases v with
  | int m =>
    cases w with
    | int k => exact (noStrings (Except.ok.inj hs).symm (Except.ok.inj ht).symm).elim
    | _ => rfl
  | bool a =>
    cases w with
    | bool b => exact (noStrings (Except.ok.inj hs).symm (Except.ok.inj ht).symm).elim
    | _ => rfl
  | _ => rfl

end Value

end Scriptlet
