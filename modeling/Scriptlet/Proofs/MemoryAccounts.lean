import Scriptlet.Proofs.HardLimits

/-!
# Memory in use and memory charged

An object is charged at the size that it has when it is allocated. When it is freed, the size that it has then is
given back, although lists, dictionaries and the variables of calls may have grown meanwhile without being charged
for it. So the memory in use may be less than what the objects on the heap were charged, but by no more than was
given back beyond the charges of the objects that were freed.
-/

namespace Scriptlet

open Budget (Counters Limits Meter)
open Heap (Cell Chain Change)

theorem Heap.Cell.baseSize_le_size (c : Cell) : baseSize ≤ c.size := by
  cases c with
  | method m => exact Nat.le_refl _
  | _ => exact Nat.le_add_right ..

/-! ## Accounts -/

/-- What the objects on the heap were charged. -/
structure Accounts where
  /-- The objects on the heap with the size that each was charged at. -/
  charges : List (Address × Nat) := []
  /-- What was given back beyond the charges of the objects that were freed. -/
  overpaid : Nat := 0

namespace Accounts

/-- The sum of some charges. -/
def total : List (Address × Nat) → Nat
  | [] => 0
  | (_, size) :: charges => size + total charges

/-- Closes the account of an object: its charge, and the charges of the others. -/
def close (a : Address) : List (Address × Nat) → Nat × List (Address × Nat)
  | [] => (0, [])
  | (b, size) :: charges =>
    if b = a then (size, charges)
    else ((close a charges).1, (b, size) :: (close a charges).2)

/-- Keeps the accounts. -/
def post (acc : Accounts) : Happening → Accounts
  | .allocated a size => { acc with charges := (a, size) :: acc.charges }
  | .freed a size =>
    { charges := (close a acc.charges).2
      overpaid := acc.overpaid + (size - (close a acc.charges).1) }
  | _ => acc

/-- The accounts after some changes of an empty heap. -/
def ofChanges (past : List Change) : Accounts := past.foldl (fun acc x => acc.post x.what) {}

theorem total_close (a : Address) (charges : List (Address × Nat)) :
    total charges = (close a charges).1 + total (close a charges).2 := by
  induction charges with
  | nil => rfl
  | cons p charges ih =>
    unfold close
    split
    · rfl
    · simp only [total]
      omega

theorem map_fst_close (a : Address) (charges : List (Address × Nat)) :
    (close a charges).2.map Prod.fst = (charges.map Prod.fst).erase a := by
  induction charges with
  | nil => rfl
  | cons p charges ih =>
    obtain ⟨b, size⟩ := p
    unfold close
    by_cases hb : b = a
    · simp [hb]
    · simp [hb, ih]

theorem mem_of_mem_close {a : Address} {charges : List (Address × Nat)} {p : Address × Nat}
    (h : p ∈ (close a charges).2) : p ∈ charges := by
  induction charges with
  | nil => exact h
  | cons q charges ih =>
    unfold close at h
    split at h
    · exact List.mem_cons_of_mem _ h
    · obtain rfl | h := List.mem_cons.1 h
      · exact List.mem_cons_self
      · exact List.mem_cons_of_mem _ (ih h)

theorem le_total {charges : List (Address × Nat)} {p : Address × Nat} (h : p ∈ charges) : p.2 ≤ total charges := by
  induction charges with
  | nil => cases h
  | cons q charges ih =>
    obtain rfl | h := List.mem_cons.1 h
    · exact Nat.le_add_right ..
    · exact Nat.le_trans (ih h) (Nat.le_add_left ..)

/-- There is one account for each object on the heap, and what was charged exceeds the memory in use by at most what
was overpaid. -/
structure Cover (acc : Accounts) (h : Heap) (c : Counters) : Prop where
  nodup : (acc.charges.map Prod.fst).Nodup
  live : ∀ a, a ∈ acc.charges.map Prod.fst ↔ (h.cell? a).isSome
  base : ∀ p ∈ acc.charges, Cell.baseSize ≤ p.2
  balance : total acc.charges ≤ c.memory + acc.overpaid

namespace Cover

variable {acc : Accounts} {h h' : Heap} {c c' : Counters}

theorem empty (meter : Meter) : Cover {} (.empty meter) {} :=
  ⟨by simp, by simp [Heap.empty, Heap.cell?], by simp, Nat.le_refl _⟩

/-- No object came or went and no memory was charged or given back. -/
theorem same (cover : acc.Cover h c) (cells : ∀ a, (h'.cell? a).isSome = (h.cell? a).isSome)
    (memory : c'.memory = c.memory) : acc.Cover h' c' :=
  ⟨cover.nodup, fun a => by rw [cells, cover.live], cover.base, memory ▸ cover.balance⟩

theorem allocated (cover : acc.Cover h c) {cell : Cell} {a : Address} (placed : h.Placed cell a h')
    (memory : c'.memory = c.memory + cell.size) : (acc.post (.allocated a cell.size)).Cover h' c' := by
  have new : a ∉ acc.charges.map Prod.fst := by
    rw [cover.live, placed.fresh]
    exact Bool.false_ne_true
  refine ⟨List.nodup_cons.2 ⟨new, cover.nodup⟩, fun b => ?_, ?_, ?_⟩
  · rw [placed.cell?]
    by_cases hb : a = b
    · simp [post, hb]
    · rw [if_neg hb, ← cover.live]
      simp [post, Ne.symm hb]
  · intro p hp
    obtain rfl | hp := List.mem_cons.1 hp
    · exact cell.baseSize_le_size
    · exact cover.base p hp
  · have balance := cover.balance
    simp only [post, total, memory]
    omega

theorem freed (cover : acc.Cover h c) (a : Address) {size : Nat} (memory : c'.memory = c.memory - size) :
    (acc.post (.freed a size)).Cover (h.discard a) c' := by
  refine ⟨?_, fun b => ?_, fun p hp => cover.base p (mem_of_mem_close hp), ?_⟩
  · rw [post, map_fst_close]
    exact cover.nodup.erase a
  · rw [post, map_fst_close, cover.nodup.mem_erase_iff, cover.live, Heap.cell?_discard]
    by_cases hb : a = b
    · simp [hb]
    · simp [hb, Ne.symm hb]
  · have balance := cover.balance
    have closed := total_close a acc.charges
    simp only [post, memory]
    omega

end Cover

end Accounts

/-! ## Lives -/

namespace Heap

variable {l : Limits} {h h' : Heap}

theorem Happens.cover (ht : h.Tidy) {c c' : Counters} {acc : Accounts} (cover : acc.Cover h c)
    {e : Happening} (happens : h.Happens e h') (counts : Counts l c e c') : (acc.post e).Cover h' c' := by
  cases happens with
  | allocated ran =>
    obtain ⟨-, -, rfl⟩ := counts
    exact cover.allocated (allocate_eq_ok ht ran).2 rfl
  | refused ran =>
    cases counts
    rw [allocate_eq_error ht ran]
    exact cover
  | updated a f =>
    cases counts
    refine cover.same (fun b => ?_) rfl
    rw [cell?_update]
    split <;> simp
  | frozen roots =>
    cases counts
    refine cover.same (fun b => ?_) rfl
    obtain same | frozen := h.cell?_freezeFrom roots b
    · rw [same]
    · rw [frozen, Option.isSome_map]
  | @freed a cell found =>
    cases counts
    exact cover.freed a rfl
  | started kind depth ran =>
    rw [(tick_eq_ok ran).2]
    exact cover.same (fun _ => rfl) counts.1.memory
  | stopped ran =>
    rw [(tick_eq_error ran).2]
    exact cover.same (fun _ => rfl) counts.1.memory
  | _ =>
    cases counts
    exact cover.same (fun _ => rfl) rfl

theorem Chain.cover {past : List Change} (chain : (empty (.start l)).Chain past h) :
    ∃ c, h.meter = .full l c ∧ (Accounts.ofChanges past).Cover h c := by
  induction chain with
  | start => exact ⟨{}, rfl, .empty _⟩
  | step before happens ih =>
    obtain ⟨c, hm, cover⟩ := ih
    have tidy := before.tidy (tidy_empty _)
    obtain ⟨c', hm', counts⟩ := happens.counts tidy hm
    rw [Accounts.ofChanges, List.foldl_append]
    exact ⟨c', hm', happens.cover tidy cover counts⟩

end Heap

/-- At every point in the chronicle of a session of a module with limits, what the objects on its heap were charged
exceeds the memory in use, and so the limit of the memory, by at most what was given back beyond the charges of freed
objects. -/
theorem charges_le_memory_add_overpaid (name : String) (l : Limits) (steps : List Step) :
    ((Module.create name (.start l)).runChronicled steps).1 = (Module.create name (.start l)).run steps ∧
    (Module.create name (.start l)).Lives steps ((Module.create name (.start l)).runChronicled steps).2 ∧
    ∀ past, past <+: ((Module.create name (.start l)).runChronicled steps).2 →
      ∃ h c, (Heap.empty (.start l)).Chain past h ∧ h.meter = .full l c ∧
        (Accounts.ofChanges past).Cover h c ∧
        ∀ n ∈ l.maxMemory, Accounts.total (Accounts.ofChanges past).charges ≤
          n + (Accounts.ofChanges past).overpaid := by
  have ht : (Heap.empty (.start l)).Tidy := Heap.tidy_empty _
  obtain ⟨replies, lives, -⟩ := Module.recounts_run (m := .create name (.start l)) ht steps
  refine ⟨replies, lives, fun past cut => ?_⟩
  obtain ⟨h, chain⟩ := lives.chain.of_prefix cut
  obtain ⟨c, hm, cover⟩ := Heap.Chain.cover chain
  obtain ⟨c', hm', kept⟩ := Heap.Chain.kept chain
  cases hm.symm.trans hm'
  refine ⟨h, c, chain, hm, cover, fun n hn => ?_⟩
  exact Nat.le_trans cover.balance (Nat.add_le_add_right (kept.memory n hn) _)

/-- A module with plenty of memory. -/
def roomyModule : Module := Module.create "m" (.start { maxMemory := some 1000 })

/-- A function that sets a variable, and a call of it, whose variables are charged while there are none yet. -/
def outgrown : List Step :=
  [.exec .silent [.define "f" [] [.assign (.name "a") .none]], .call .silent "f" [] []]

/-- The one object that is left was charged 96 bytes, but only 64 are in use. -/
theorem memory_lt_charges_outgrown :
    roomyModule.Lives outgrown (roomyModule.runChronicled outgrown).2 ∧
    ∃ c, (roomyModule.run outgrown).2.heap.meter.counters? = some c ∧
      c.memory < Accounts.total (Accounts.ofChanges (roomyModule.runChronicled outgrown).2).charges := by
  obtain ⟨-, lives, -⟩ := Module.recounts_run (m := roomyModule) (Heap.tidy_empty _) outgrown
  obtain ⟨c, hm, cover⟩ := Heap.Chain.cover lives.chain
  have used : (roomyModule.run outgrown).2.heap.meter.counters? =
      some { allocations := 2, memory := 64 } := by decide +kernel
  have left : ((roomyModule.run outgrown).2.heap.cell? ⟨0⟩).isSome := by decide +kernel
  obtain ⟨p, hp, -⟩ := List.mem_map.1 ((cover.live ⟨0⟩).2 left)
  refine ⟨lives, _, used, ?_⟩
  calc
    64 < Cell.baseSize := by decide
    _ ≤ p.2 := cover.base p hp
    _ ≤ Accounts.total (Accounts.ofChanges (roomyModule.runChronicled outgrown).2).charges := Accounts.le_total hp

end Scriptlet
