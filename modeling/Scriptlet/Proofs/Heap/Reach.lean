import Mathlib.Data.List.TakeWhile
import Scriptlet.Heap.Collect
import Scriptlet.Proofs.Heap.Slots

/-!
# Reachability

Marking finds exactly the slots that can be reached from the roots. From this follows what a collection does
(it keeps the reachable objects as they are and empties every other slot) and what freezing does (it makes
the reachable lists and dictionaries immutable and leaves all else alone).
-/

namespace Scriptlet.Heap

variable {h : Heap} {a : Address} {roots : List Address} {marks : Array Bool}

/-- The addresses that can be reached from some roots through the objects of a heap. -/
inductive Reaches (h : Heap) (roots : List Address) : Address → Prop where
  | root {a : Address} (ha : a ∈ roots) : Reaches h roots a
  | child {a b : Address} (ha : Reaches h roots a) (hb : b ∈ h.children a) : Reaches h roots b

theorem mem_children_of_cell? {b : Address} {c : Cell} (hc : h.cell? a = some c)
    (hb : b ∈ c.children) : b ∈ h.children a := by
  simpa [children, hc] using hb

/-- A set of addresses that holds the roots and the children of its members holds all that is reachable. -/
theorem Reaches.mem_of_closed {S : Address → Prop}
    (hroots : ∀ a ∈ roots, S a) (hclosed : ∀ a, S a → ∀ b ∈ h.children a, S b) (ha : Reaches h roots a) : S a := by
  induction ha with
  | root ha => exact hroots _ ha
  | child _ hb ih => exact hclosed _ ih _ hb

/-- Reachability only depends on the objects that are met on the way. -/
theorem Reaches.congr {h' : Heap} (ha : Reaches h roots a)
    (hcells : ∀ b, Reaches h roots b → h'.children b = h.children b) : Reaches h' roots a := by
  induction ha with
  | root ha => exact .root ha
  | child ha hb ih => exact .child ih (hcells _ ha ▸ hb)

/-! ## Marking -/

/-- Whether a slot has a mark. -/
def Marked (marks : Array Bool) (a : Address) : Prop := marks[a.index]? = some true

theorem unmarked_iff : unmarked marks a = true ↔ a.index < marks.size ∧ ¬ Marked marks a := by
  cases hm : marks[a.index]? with
  | none => simp [unmarked, Marked, Array.getElem?_eq_none_iff.1 hm]
  | some b =>
    have hlt := (Array.getElem?_eq_some_iff.1 hm).1
    cases b <;> simp_all [unmarked, Marked]

theorem marked_set {b : Address} (ha : a.index < marks.size) :
    Marked (marks.setIfInBounds a.index true) b ↔ a = b ∨ Marked marks b := by
  by_cases hab : a = b
  · subst hab
    simp [Marked, ha]
  · have hi : a.index ≠ b.index := fun hi => hab (Address.eq_of_index hi)
    simp [Marked, hab, hi]

/-- The state of a marking: all marks and waiting addresses are reachable, and what a marked object refers
to is marked or waits, if its slot exists. -/
structure Marking (h : Heap) (roots waiting : List Address) (marks : Array Bool) : Prop where
  size : marks.size = h.slots.size
  sound : ∀ a, Marked marks a ∨ a ∈ waiting → Reaches h roots a
  roots : ∀ a ∈ roots, a.index < h.slots.size → Marked marks a ∨ a ∈ waiting
  closed : ∀ a, Marked marks a → ∀ b ∈ h.children a, b.index < h.slots.size →
    Marked marks b ∨ b ∈ waiting

/-- The number of slots without a mark. -/
def unmarkedCount (marks : Array Bool) : Nat := marks.count false

theorem unmarkedCount_set (ha : unmarked marks a = true) :
    unmarkedCount (marks.setIfInBounds a.index true) + 1 = unmarkedCount marks := by
  have hm : marks[a.index]? = some false := by simpa [unmarked] using ha
  obtain ⟨hlt, hm⟩ := Array.getElem?_eq_some_iff.1 hm
  have hpos : 0 < marks.count false :=
    Array.count_pos_iff.2 (hm ▸ Array.getElem_mem hlt)
  rw [unmarkedCount, unmarkedCount, Array.setIfInBounds_def, dif_pos hlt, Array.count_set]
  simp [hm]
  omega

/-- Addresses whose slot is marked or does not exist need not wait. -/
theorem Marking.dropWhile {waiting : List Address}
    (m : Marking h roots waiting marks) : Marking h roots (waiting.dropWhile fun a => !unmarked marks a) marks := by
  have hkeep : ∀ a, a.index < h.slots.size → (Marked marks a ∨ a ∈ waiting) →
      Marked marks a ∨ a ∈ waiting.dropWhile fun a => !unmarked marks a := by
    intro a hlt ha
    rcases ha with ha | ha
    · exact .inl ha
    · by_cases hma : Marked marks a
      · exact .inl hma
      · rw [← List.takeWhile_append_dropWhile (p := fun a => !unmarked marks a) (l := waiting),
          List.mem_append] at ha
        rcases ha with ha | ha
        · have hu := List.mem_takeWhile_imp ha
          simp [unmarked_iff.2 ⟨m.size ▸ hlt, hma⟩] at hu
        · exact .inr ha
  refine ⟨m.size, fun a ha => m.sound a (ha.imp_right fun ha => ?_), fun a ha hlt => ?_,
    fun a ha b hb hlt => ?_⟩
  · exact (List.dropWhile_sublist _).subset ha
  · exact hkeep a hlt (m.roots a ha hlt)
  · exact hkeep b hlt (m.closed a ha b hb hlt)

/-- One round: the first waiting address is marked and its children wait in its place. -/
theorem Marking.step {rest : List Address} (m : Marking h roots (a :: rest) marks) (ha : a.index < marks.size) :
    Marking h roots (h.children a ++ rest) (marks.setIfInBounds a.index true) := by
  have hreach : Reaches h roots a := m.sound a (.inr (by simp))
  refine ⟨by simp [m.size], ?_, ?_, ?_⟩
  · intro b hb
    rw [marked_set ha, List.mem_append] at hb
    rcases hb with (rfl | hb) | hb | hb
    · exact hreach
    · exact m.sound b (.inl hb)
    · exact .child hreach hb
    · exact m.sound b (.inr (List.mem_cons_of_mem _ hb))
  · intro b hb hlt
    have := m.roots b hb hlt
    rw [marked_set ha, List.mem_append]
    grind
  · intro b hb c hc hlt
    rw [marked_set ha] at hb ⊢
    rw [List.mem_append]
    rcases hb with rfl | hb
    · exact .inr (.inl hc)
    · have := m.closed b hb c hc hlt
      grind

theorem Marking.markFrom {h : Heap} {roots : List Address} :
    ∀ {n : Nat} {waiting : List Address} {marks : Array Bool}, Marking h roots waiting marks →
      unmarkedCount marks ≤ n → Marking h roots [] (h.markFrom n waiting marks)
  | 0, waiting, marks, m, hn => by
    have hw : (waiting.dropWhile fun a => !unmarked marks a) = [] := by
      rw [List.dropWhile_eq_nil_iff]
      intro a _
      cases hu : unmarked marks a with
      | false => rfl
      | true => have := unmarkedCount_set hu; omega
    exact hw ▸ m.dropWhile
  | n + 1, waiting, marks, m, hn => by
    have hd := m.dropWhile
    unfold Heap.markFrom
    split
    · rename_i hw
      exact hw ▸ hd
    · rename_i a rest hw
      rw [hw] at hd
      have hu : unmarked marks a = true := by
        have := List.head?_dropWhile_not (fun a => !unmarked marks a) waiting
        rw [hw] at this
        simpa using this
      refine (hd.step (unmarked_iff.1 hu).1).markFrom ?_
      have := unmarkedCount_set hu
      omega

theorem not_marked_replicate (n : Nat) (a : Address) : ¬ Marked (Array.replicate n false) a := by
  intro ha
  obtain ⟨_, ha⟩ := Array.getElem?_eq_some_iff.1 ha
  simp at ha

/-- At first nothing is marked and the roots wait. -/
theorem marking_start (h : Heap) (roots : List Address) :
    Marking h roots roots (Array.replicate h.slots.size false) := by
  refine ⟨by simp, fun a ha => ?_, fun a ha _ => .inr ha, fun a ha => ?_⟩
  · exact .root (ha.resolve_left (not_marked_replicate _ a))
  · exact absurd ha (not_marked_replicate _ a)

/-- Marking ends with nothing waiting. -/
theorem marking_mark (h : Heap) (roots : List Address) : Marking h roots [] (h.mark roots) :=
  (marking_start h roots).markFrom (by simp [unmarkedCount])

/-- When nothing waits any more, exactly the existing slots that can be reached are marked. -/
theorem Marking.marked_iff (m : Marking h roots [] marks)
    : Marked marks a ↔ a.index < h.slots.size ∧ Reaches h roots a := by
  constructor
  · intro ha
    exact ⟨m.size ▸ (Array.getElem?_eq_some_iff.1 ha).1, m.sound a (.inl ha)⟩
  · rintro ⟨hlt, ha⟩
    refine ha.mem_of_closed (S := fun a => a.index < h.slots.size → Marked marks a)
      (fun b hb hlt => (m.roots b hb hlt).resolve_right List.not_mem_nil) (fun b hb c hc hlt => ?_) hlt
    -- An object that refers to another is there, so its slot exists.
    have hbc : ∃ d, h.cell? b = some d := by
      cases hd : h.cell? b with
      | none => simp [children, hd] at hc
      | some d => exact ⟨d, rfl⟩
    obtain ⟨d, hd⟩ := hbc
    exact (m.closed b (hb (index_lt_of_cell? hd)) c hc hlt).resolve_right List.not_mem_nil

/-- Marking marks exactly the existing slots that can be reached. -/
theorem marked_mark_iff : Marked (h.mark roots) a ↔ a.index < h.slots.size ∧ Reaches h roots a :=
  (marking_mark h roots).marked_iff

theorem reaches_of_marked
    (ha : Marked (h.mark roots) a) : Reaches h roots a :=
  (marked_mark_iff.1 ha).2

/-! ## Collection -/

theorem mem_unreached : a ∈ h.unreached (h.mark roots) ↔ (h.cell? a).isSome ∧ ¬ Reaches h roots a := by
  have hsize := (marking_mark h roots).size
  have hrange : a ∈ (List.range h.slots.size).map Address.mk ↔ a.index < h.slots.size := by
    simp only [List.mem_map, List.mem_range]
    exact ⟨fun ⟨i, hi, e⟩ => e ▸ hi, fun hi => ⟨a.index, hi, rfl⟩⟩
  rw [unreached, List.mem_filter, hrange, Bool.and_eq_true, unmarked_iff, marked_mark_iff, hsize]
  constructor
  · rintro ⟨hlt, ⟨-, hr⟩, hs⟩
    exact ⟨hs, fun ha => hr ⟨hlt, ha⟩⟩
  · rintro ⟨hs, hr⟩
    obtain ⟨c, hc⟩ := Option.isSome_iff_exists.1 hs
    have hlt := index_lt_of_cell? hc
    exact ⟨hlt, ⟨hlt, fun ha => hr ha.2⟩, hs⟩

theorem cell?_foldl_discard (dead : List Address) (h : Heap) (a : Address) :
    (dead.foldl discard h).cell? a = if a ∈ dead then none else h.cell? a := by
  induction dead generalizing h with
  | nil => simp
  | cons b dead ih =>
    rw [List.foldl_cons, ih, cell?_discard]
    by_cases hab : b = a
    · simp [hab]
    · simp [hab, Ne.symm hab]

theorem Tidy.foldl_discard (ht : h.Tidy) (dead : List Address) : (dead.foldl Heap.discard h).Tidy := by
  induction dead generalizing h with
  | nil => exact ht
  | cons b dead ih => exact ih (ht.discard b)

theorem Tidy.collect (ht : h.Tidy) (roots : List Address) : (h.collect roots).2.Tidy :=
  have t := ht.foldl_discard (h.unreached (h.mark roots))
  ⟨t.mem_free_iff, t.nodup⟩

theorem meter_foldl_discard (dead : List Address) (h : Heap) :
    ∃ freed, (dead.foldl discard h).meter = h.meter.refund freed := by
  induction dead generalizing h with
  | nil => exact ⟨0, h.meter.refund_zero.symm⟩
  | cons a dead ih =>
    obtain ⟨n, hn⟩ := h.meter_discard a
    obtain ⟨k, hk⟩ := ih (h.discard a)
    exact ⟨n + k, by rw [List.foldl_cons, hk, hn, Budget.Meter.refund_refund]⟩

theorem meter_collect (h : Heap) (roots : List Address) : ∃ freed, (h.collect roots).2.meter = h.meter.refund freed :=
  meter_foldl_discard _ h

/-- A collection keeps each reachable object as it is. -/
theorem cell?_collect_of_reaches
    (ha : Reaches h roots a) : (h.collect roots).2.cell? a = h.cell? a := by
  have hna : a ∉ h.unreached (h.mark roots) := fun hm => (mem_unreached.1 hm).2 ha
  exact (cell?_foldl_discard _ h a).trans (if_neg hna)

/-- A collection empties each slot that cannot be reached. -/
theorem cell?_collect_of_not_reaches
    (ha : ¬ Reaches h roots a) : (h.collect roots).2.cell? a = none := by
  refine (cell?_foldl_discard _ h a).trans ?_
  split
  · rfl
  · rename_i hna
    cases hc : h.cell? a with
    | none => rfl
    | some c => exact absurd (mem_unreached.2 ⟨by simp [hc], ha⟩) hna

theorem cell?_collect_eq_some {c : Cell} :
    (h.collect roots).2.cell? a = some c ↔ Reaches h roots a ∧ h.cell? a = some c := by
  by_cases ha : Reaches h roots a
  · simp [cell?_collect_of_reaches ha, ha]
  · simp [cell?_collect_of_not_reaches ha, ha]

/-! ## Freezing -/

/-- Freezing freezes each reachable object. -/
theorem cell?_freezeFrom_of_reaches
    (ha : Reaches h roots a) : (h.freezeFrom roots).cell? a = (h.cell? a).map Cell.freeze := by
  simp only [cell?, freezeFrom, Array.getElem?_mapIdx]
  cases hs : h.slots[a.index]? with
  | none => rfl
  | some slot =>
    have hm : (h.mark roots)[a.index]? = some true :=
      marked_mark_iff.2 ⟨(Array.getElem?_eq_some_iff.1 hs).1, ha⟩
    simp [hm]

/-- Freezing leaves all other objects as they are. -/
theorem cell?_freezeFrom_of_not_reaches
    (ha : ¬ Reaches h roots a) : (h.freezeFrom roots).cell? a = h.cell? a := by
  simp only [cell?, freezeFrom, Array.getElem?_mapIdx]
  cases hs : h.slots[a.index]? with
  | none => rfl
  | some slot =>
    have hm : ¬ (h.mark roots)[a.index]? = some true := fun hm => ha (reaches_of_marked hm)
    simp [hm]

/-- What freezing makes of the object at an address: it is frozen or left as it is. -/
theorem cell?_freezeFrom (h : Heap) (roots : List Address) (a : Address) :
    (h.freezeFrom roots).cell? a = h.cell? a ∨
      (h.freezeFrom roots).cell? a = (h.cell? a).map Cell.freeze := by
  by_cases ha : Reaches h roots a
  · exact .inr (cell?_freezeFrom_of_reaches ha)
  · exact .inl (cell?_freezeFrom_of_not_reaches ha)

theorem children_freezeFrom (h : Heap) (roots : List Address) (a : Address) :
    (h.freezeFrom roots).children a = h.children a := by
  obtain ha | ha := cell?_freezeFrom h roots a <;> simp only [children, ha]
  cases h.cell? a with
  | none => rfl
  | some c => cases c <;> rfl

/-- Freezing does not change what can be reached. -/
theorem reaches_freezeFrom_iff {roots' : List Address} : Reaches (h.freezeFrom roots) roots' a ↔ Reaches h roots' a :=
  ⟨fun ha => ha.congr fun b _ => (children_freezeFrom h roots b).symm,
    fun ha => ha.congr fun b _ => children_freezeFrom h roots b⟩

theorem Tidy.freezeFrom (ht : h.Tidy) (roots : List Address) : (h.freezeFrom roots).Tidy := by
  refine ⟨fun a => (ht.mem_free_iff a).trans ?_, ht.nodup⟩
  simp only [Heap.freezeFrom, Array.getElem?_mapIdx]
  cases hs : h.slots[a.index]? with
  | none => simp
  | some slot => cases slot <;> simp only [Option.map] <;> split <;> simp

end Scriptlet.Heap
