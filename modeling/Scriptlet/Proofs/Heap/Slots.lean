import Scriptlet.Heap.Edit

/-!
# Slots of the heap

The free list of a tidy heap lists exactly the empty slots, each of them once. Every operation on the heap
keeps it tidy, and this module says what each of them does to the objects: an allocation fills one slot that
held nothing, a release empties at most one, and a change in place touches one object. What is counted on the
way never changes the terms of the meter.
-/

namespace Scriptlet

/-! ## The meter -/

namespace Budget.Meter

/-- The meter before anything was counted: its terms. -/
def reset : Meter → Meter
  | .depthOnly maxDepth => .depthOnly maxDepth
  | .full limits _ => .start limits

theorem reset_charge {m k : Meter} {size : Nat} (h : m.charge size = .ok k) : k.reset = m.reset := by
  cases m with
  | depthOnly maxDepth =>
    cases h
    rfl
  | full limits c =>
    simp only [charge] at h
    split at h
    · cases h
    · split at h <;> cases h
      rfl

theorem refund_zero (m : Meter) : m.refund 0 = m := by
  cases m <;> rfl

theorem refund_refund (m : Meter) (n k : Nat) : (m.refund n).refund k = m.refund (n + k) := by
  cases m with
  | depthOnly maxDepth => rfl
  | full limits counters => simp only [refund, Nat.sub_sub]

theorem reset_refund (m : Meter) (size : Nat) : (m.refund size).reset = m.reset := by
  cases m <;> rfl

theorem reset_tick (m : Meter) : m.tick.2.reset = m.reset := by
  cases m with
  | depthOnly maxDepth => rfl
  | full limits c =>
    simp only [tick]
    split
    · rfl
    · split <;> rfl

theorem depthLimit_of_reset {m k : Meter} (h : k.reset = m.reset) : k.depthLimit = m.depthLimit := by
  have same (m : Meter) : m.reset.depthLimit = m.depthLimit := by
    cases m <;> rfl
  rw [← same k, h, same m]

theorem eq_of_reset {m : Meter} {maxDepth : Option Nat} (h : m.reset = .depthOnly maxDepth) :
    m = .depthOnly maxDepth := by
  cases m with
  | depthOnly maxDepth' => exact h
  | full limits c => cases h

end Budget.Meter

/-! ## Slots -/

theorem Address.eq_of_index {a b : Address} (h : a.index = b.index) : a = b := by
  cases a; cases b; simp_all

namespace Heap

variable {h : Heap} {a : Address} {c : Cell}

/-- The free list holds the empty slots, each of them once. -/
structure Tidy (h : Heap) : Prop where
  mem_free_iff : ∀ a, a ∈ h.free ↔ h.slots[a.index]? = some none
  nodup : h.free.Nodup

theorem tidy_empty (meter : Budget.Meter) : (empty meter).Tidy :=
  ⟨by simp [empty], by simp [empty]⟩

theorem cell?_eq_some_iff : h.cell? a = some c ↔ h.slots[a.index]? = some (some c) := by
  unfold cell?
  split <;> simp_all

theorem index_lt_of_cell? (hc : h.cell? a = some c) : a.index < h.slots.size :=
  (Array.getElem?_eq_some_iff.1 (cell?_eq_some_iff.1 hc)).1

theorem read_of_cell? (hc : h.cell? a = some c) : h.read a = .ok c := by
  simp [read, hc]

/-! ## Allocation -/

/-- The heap `h'` is `h` with the object `c` in the slot `a`, which held nothing. -/
structure Placed (h : Heap) (c : Cell) (a : Address) (h' : Heap) : Prop where
  fresh : h.cell? a = none
  cell? : ∀ b, h'.cell? b = if a = b then some c else h.cell? b
  tidy : h'.Tidy
  meter : h'.meter.reset = h.meter.reset

theorem Placed.cell?_self {h' : Heap} (p : Placed h c a h') : h'.cell? a = some c := by
  simp [p.cell? a]

theorem Placed.cell?_of_some {h' : Heap} {d : Cell} {b : Address} (p : Placed h c a h')
    (hb : h.cell? b = some d) : h'.cell? b = some d := by
  rw [p.cell?, if_neg, hb]
  rintro rfl
  simp [p.fresh] at hb

/-- The empty slot that was freed last is filled. -/
theorem placed_reuse (ht : h.Tidy) (c : Cell) {free : List Address} (hf : h.free = a :: free) :
    Placed h c a { h with slots := h.slots.setIfInBounds a.index (some c), free } := by
  have ha : h.slots[a.index]? = some none := (ht.mem_free_iff a).1 (by simp [hf])
  have hlt : a.index < h.slots.size := (Array.getElem?_eq_some_iff.1 ha).1
  have hn : a ∉ free ∧ free.Nodup := List.nodup_cons.1 (hf ▸ ht.nodup)
  refine ⟨by simp [cell?, ha], fun b => ?_, ⟨fun b => ?_, hn.2⟩, rfl⟩
  · by_cases hab : a = b
    · subst hab
      simp [Heap.cell?, hlt]
    · have hi : a.index ≠ b.index := fun hi => hab (Address.eq_of_index hi)
      simp [Heap.cell?, hab, hi]
  · by_cases hab : a = b
    · subst hab
      simp [hlt, hn.1]
    · have hi : a.index ≠ b.index := fun hi => hab (Address.eq_of_index hi)
      have hb := ht.mem_free_iff b
      simp only [hf, List.mem_cons, Ne.symm hab, false_or] at hb
      simpa [Array.getElem?_setIfInBounds, hi] using hb

/-- Without an empty slot a new one is added. -/
theorem placed_push (ht : h.Tidy) (c : Cell) (hf : h.free = []) :
    Placed h c ⟨h.slots.size⟩ { h with slots := h.slots.push (some c) } := by
  refine ⟨by simp [cell?], fun b => ?_, ⟨fun b => ?_, ht.nodup⟩, rfl⟩
  · by_cases hb : (⟨h.slots.size⟩ : Address) = b
    · subst hb
      simp [Heap.cell?]
    · have hi : b.index ≠ h.slots.size := fun hi => hb (Address.eq_of_index hi.symm)
      simp [Heap.cell?, Array.getElem?_push, hb, hi]
  · have hb := ht.mem_free_iff b
    by_cases hi : b.index = h.slots.size
    · simp [hf, hi]
    · simpa [Array.getElem?_push, hi] using hb

theorem place_ok (ht : h.Tidy) (c : Cell) : ∃ a h', place c h = .ok a h' ∧ Placed h c a h' ∧ h'.meter = h.meter := by
  unfold place
  split
  · rename_i a free hf
    have ha : h.slots[a.index]? = some none := (ht.mem_free_iff a).1 (by simp [hf])
    rw [if_pos (Array.getElem?_eq_some_iff.1 ha).1]
    exact ⟨a, _, rfl, placed_reuse ht c hf, rfl⟩
  · rename_i hf
    exact ⟨_, _, rfl, placed_push ht c hf, rfl⟩

/-- An allocation is refused by the meter and changes nothing, or it fills a slot that held nothing. -/
theorem allocate_cases (ht : h.Tidy) (c : Cell) :
    (∃ use, h.meter.charge c.size = .error use ∧
      allocate c h = .error (.ofCause (.exhausted use)) h) ∨
    ∃ meter a h', h.meter.charge c.size = .ok meter ∧ allocate c h = .ok a h' ∧
      Placed h c a h' ∧ h'.meter = meter := by
  unfold allocate
  cases hm : h.meter.charge c.size with
  | error use => exact .inl ⟨use, rfl, rfl⟩
  | ok meter =>
    obtain ⟨a, h', hp, placed, rfl⟩ :=
      place_ok (h := { h with meter, sinceCollection := h.sinceCollection + 1 })
        ⟨ht.mem_free_iff, ht.nodup⟩ c
    exact .inr ⟨_, a, h', rfl, hp,
      ⟨placed.fresh, placed.cell?, placed.tidy, Budget.Meter.reset_charge hm⟩, rfl⟩

/-! ## Changes in place -/

theorem Tidy.update (ht : h.Tidy) (a : Address) (f : Cell → Cell) : (h.update a f).Tidy := by
  refine ⟨fun b => ?_, ht.nodup⟩
  rw [show (h.update a f).free = h.free from rfl, ht.mem_free_iff b]
  by_cases hi : a.index = b.index
  · cases hs : h.slots[b.index]? <;> simp [Heap.update, Array.getElem?_modify, hi, hs]
  · simp [Heap.update, Array.getElem?_modify, hi]

/-! ## Release -/

theorem cell?_discard (h : Heap) (a b : Address) : (h.discard a).cell? b = if a = b then none else h.cell? b := by
  unfold discard
  split
  · rename_i ha
    split
    · rename_i hab
      exact hab ▸ ha
    · rfl
  · rename_i c hc
    have hlt := index_lt_of_cell? hc
    by_cases hab : a = b
    · subst hab
      simp [cell?, hlt]
    · have hi : a.index ≠ b.index := fun hi => hab (Address.eq_of_index hi)
      simp [cell?, hab, hi]

theorem Tidy.discard (ht : h.Tidy) (a : Address) : (h.discard a).Tidy := by
  unfold Heap.discard
  split
  · exact ht
  · rename_i c hc
    have hs := cell?_eq_some_iff.1 hc
    have hlt := index_lt_of_cell? hc
    have hna : a ∉ h.free := fun ha => by simp [(ht.mem_free_iff a).1 ha] at hs
    refine ⟨fun b => ?_, List.nodup_cons.2 ⟨hna, ht.nodup⟩⟩
    by_cases hab : a = b
    · subst hab
      simp [hlt]
    · have hi : a.index ≠ b.index := fun hi => hab (Address.eq_of_index hi)
      simpa [Array.getElem?_setIfInBounds, hi, Ne.symm hab] using ht.mem_free_iff b

theorem meter_discard (h : Heap) (a : Address) : ∃ freed, (h.discard a).meter = h.meter.refund freed := by
  unfold discard
  split
  · exact ⟨0, h.meter.refund_zero.symm⟩
  · exact ⟨_, rfl⟩

/-- The release of a frame empties its slot unless a function was made in the call. -/
theorem releaseFrame_frame {f : Frame} (hf : h.cell? a = some (.frame f)) :
    releaseFrame a h = .ok () (if f.captured then h else h.discard a) := by
  unfold releaseFrame
  rw [if_neg (Nat.not_le.2 (index_lt_of_cell? hf)), hf]
  obtain ⟨vars, parent, captured⟩ := f
  cases captured <;> rfl

end Heap

end Scriptlet
