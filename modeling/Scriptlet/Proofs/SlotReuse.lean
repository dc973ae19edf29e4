import Scriptlet.Heap.Census
import Scriptlet.Proofs.Data.Tallies
import Scriptlet.Proofs.Reclamation

/-!
# No slot is handed out twice

Slots become free in two ways, by the release of a call's variables and by a collection, and a call's variables may be
offered to both. Whatever was done to a heap, its free list has each empty slot once and no other slot. So an
allocation takes a slot in which there is no object, and a count of the heap adds up.
-/

namespace Scriptlet.Heap

open Budget (Meter)

variable {h : Heap}

/-! ## Operations -/

/-- What can be done to a heap. -/
inductive Operation where
  /-- Puts an object on the heap, if the meter allows it. -/
  | allocate (c : Cell)
  /-- Changes an object in place, in any way. -/
  | update (a : Address) (f : Cell → Cell)
  | releaseFrame (a : Address)
  | collect (roots : List Address)
  | freeze (roots : List Address)

namespace Operation

/-- The heap after a computation, whether or not it has failed. -/
def heapAfter {α : Type} : EStateM.Result Failure Heap α → Heap
  | .ok _ h => h
  | .error _ h => h

/-- The heap after an operation. -/
def apply (h : Heap) : Operation → Heap
  | .allocate c => heapAfter (Heap.allocate c h)
  | .update a f => h.update a f
  | .releaseFrame a => heapAfter (Heap.releaseFrame a h)
  | .collect roots => (h.collect roots).2
  | .freeze roots => h.freezeFrom roots

/-- The heap after some operations in a row. -/
def applyAll (h : Heap) (ops : List Operation) : Heap := ops.foldl apply h

end Operation

theorem Tidy.releaseFrame (tidy : h.Tidy) (a : Address) : (Operation.heapAfter (Heap.releaseFrame a h)).Tidy := by
  unfold Heap.releaseFrame
  split
  · exact tidy
  · split
    · exact tidy.discard a
    · exact tidy

/-- Every operation keeps the free list in order. -/
theorem Tidy.apply (tidy : h.Tidy) (op : Operation) : (op.apply h).Tidy := by
  cases op with
  | allocate c =>
    obtain ⟨use, -, refused⟩ | ⟨meter, a, h', -, allocated, placed, -⟩ := allocate_cases tidy c
    · rw [Operation.apply, refused]
      exact tidy
    · rw [Operation.apply, allocated]
      exact placed.tidy
  | update a f => exact tidy.update a f
  | releaseFrame a => exact tidy.releaseFrame a
  | collect roots => exact tidy.collect roots
  | freeze roots => exact tidy.freezeFrom roots

theorem Tidy.applyAll (tidy : h.Tidy) (ops : List Operation) : (Operation.applyAll h ops).Tidy := by
  induction ops generalizing h with
  | nil => exact tidy
  | cons op ops ih => exact ih (tidy.apply op)

/-! ## Counts -/

theorem map_cell?_addresses (h : Heap) : h.addresses.map h.cell? = h.slots.toList := by
  apply List.ext_getElem?
  intro i
  by_cases hi : i < h.slots.size
  · simp [addresses, cell?, hi]
  · simp [addresses, hi]

theorem nodup_addresses (h : Heap) : h.addresses.Nodup :=
  List.Pairwise.map _ (fun _ _ distinct same => distinct (Address.mk.inj same)) List.nodup_range

theorem slot_empty_iff {a : Address} : h.slots[a.index]? = some none ↔ a.index < h.slots.size ∧ (h.cell? a).isNone := by
  by_cases there : a.index < h.slots.size
  · simp [cell?, there]
  · simp [there]

/-- The free list has the addresses of the empty slots, in some order. -/
theorem Tidy.free_perm (tidy : h.Tidy) : h.free.Perm (h.addresses.filter fun a => (h.cell? a).isNone) := by
  rw [List.perm_ext_iff_of_nodup tidy.nodup (h.nodup_addresses.filter _)]
  intro a
  rw [tidy.mem_free_iff, slot_empty_iff, List.mem_filter, mem_addresses]

theorem live_census (h : Heap) : h.census.live = h.addresses.countP fun a => (h.cell? a).isSome := by
  have live : h.census.live = h.cells.length := List.length_map Cell.kind
  rw [live, cells, ← map_cell?_addresses, List.filterMap_map, List.length_filterMap_eq_countP]
  rfl

/-- Each slot is either in use or free. -/
theorem Tidy.live_add_free (tidy : h.Tidy) : h.census.live + h.census.free = h.census.total := by
  have free : h.census.free = h.addresses.countP fun a => (h.cell? a).isNone := by
    rw [List.countP_eq_length_filter]
    exact tidy.free_perm.length_eq
  have total : h.addresses.length = h.census.total := by
    rw [addresses, List.length_map, List.length_range]
    rfl
  have parts := List.length_eq_countP_add_countP (fun a => (h.cell? a).isSome) (l := h.addresses)
  simp only [Bool.not_eq_true, Option.isSome_eq_false_iff, Bool.decide_eq_true] at parts
  rw [live_census, free, ← total, parts]

/-- Each object is of one of the sorts. -/
theorem tallied_kinds (kinds : List CellKind) :
    tallied (CellKind.all.map fun k => (k, kinds.count k)) = kinds.length := by
  induction kinds with
  | nil => rfl
  | cons kind kinds ih =>
    simp only [CellKind.all, List.map_cons, List.map_nil, tallied_cons, tallied_nil, List.count_cons,
      List.length_cons] at ih ⊢
    cases kind <;> simp <;> omega

theorem tallied_byKind (h : Heap) : tallied h.census.byKind = h.census.live := by
  have all_kinds := tallied_filter_pos (CellKind.all.map fun k => (k, (h.cells.map Cell.kind).count k))
  exact all_kinds.trans (tallied_kinds _)

/-! ## Allocation -/

/-- The heap `h'` is `h` after the object `c` has been given the slot `a`. -/
structure Took (h : Heap) (c : Cell) (a : Address) (h' : Heap) : Prop where
  /-- There was no object in the slot. -/
  fresh : h.cell? a = none
  holds : h'.cell? a = some c
  others : ∀ b, b ≠ a → h'.slots[b.index]? = h.slots[b.index]?
  /-- A slot is added only if no slot is free. -/
  size : h'.slots.size = if h.free = [] then h.slots.size + 1 else h.slots.size

theorem place_took {h' : Heap} (tidy : h.Tidy) {c : Cell} {a : Address} (placed : place c h = .ok a h') :
    h.Took c a h' := by
  have spot : h.Placed c a h' := by
    obtain ⟨b, k, ran, spot, -⟩ := place_ok tidy c
    rw [ran] at placed
    cases placed
    exact spot
  unfold place at placed
  split at placed
  · rename_i b free listed
    split at placed
    · cases placed
      refine ⟨spot.fresh, spot.cell?_self, fun e he => ?_, by simp [listed]⟩
      have apart : a.index ≠ e.index := fun same => he (Address.eq_of_index same.symm)
      exact Array.getElem?_setIfInBounds_ne apart
    · cases placed
  · rename_i listed
    cases placed
    refine ⟨spot.fresh, spot.cell?_self, fun e he => ?_, by simp [listed]⟩
    have apart : e.index ≠ h.slots.size := fun same => he (Address.eq_of_index same)
    simp [Array.getElem?_push, apart]

/-- An allocation is refused by the meter and changes nothing, or takes a slot without an object. -/
theorem Tidy.allocate {h : Heap} (tidy : h.Tidy) (c : Cell) :
    (∃ use, h.meter.charge c.size = .error use ∧ Heap.allocate c h = .error (.ofCause (.exhausted use)) h) ∨
      ∃ a h', Heap.allocate c h = .ok a h' ∧ h.Took c a h' := by
  obtain refused | ⟨meter, a, h', charged, allocated, -⟩ := allocate_cases tidy c
  · exact .inl refused
  · refine .inr ⟨a, h', allocated, ?_⟩
    unfold Heap.allocate at allocated
    rw [charged] at allocated
    have paid : Tidy { h with meter, sinceCollection := h.sinceCollection + 1 } := ⟨tidy.mem_free_iff, tidy.nodup⟩
    obtain ⟨fresh, holds, others, size⟩ := place_took paid allocated
    exact ⟨fresh, holds, others, size⟩

/-- Whatever was done to a heap since it was made, the free list has each empty slot once and no other one. So each slot
is in use or free, the numbers of objects by sort add up to the number of objects, and an allocation that is not refused
takes a slot in which there is no object, leaves all other slots as they are and adds a slot only if none is free. -/
theorem slots_handed_out_once (meter : Meter) (ops : List Operation) :
    let h := Operation.applyAll (empty meter) ops
    (h.free.Nodup ∧ ∀ a, a ∈ h.free ↔ h.slots[a.index]? = some none) ∧
    (h.census.live + h.census.free = h.census.total ∧ tallied h.census.byKind = h.census.live) ∧
    ∀ c, (∃ use, h.meter.charge c.size = .error use ∧ allocate c h = .error (.ofCause (.exhausted use)) h) ∨
      ∃ a h', allocate c h = .ok a h' ∧ h.Took c a h' := by
  intro h
  have tidy : h.Tidy := (tidy_empty meter).applyAll ops
  exact ⟨⟨tidy.nodup, tidy.mem_free_iff⟩, ⟨tidy.live_add_free, h.tallied_byKind⟩, tidy.allocate⟩

end Scriptlet.Heap
