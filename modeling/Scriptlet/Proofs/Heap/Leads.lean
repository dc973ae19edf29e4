import Scriptlet.Proofs.Heap.Slots

/-!
# What lies in a value

Lists, tuples, dictionaries and structs are made of other values, their parts. A value lies in another one if a path
of containers leads to it. Heaps can have cycles, and then there are paths of any length.
-/

namespace Scriptlet

namespace Heap

/-- Whether an object is made of other values. -/
def Cell.isContainer : Cell → Bool
  | .list .. | .tuple _ | .dict .. | .struct _ => true
  | _ => false

/-- The values that a container is made of. -/
def Cell.parts : Cell → List Value
  | .list items _ => items.toList
  | .tuple items => items.toList
  | .dict entries _ => entries.values.flatMap fun e => [e.1, e.2]
  | .struct fields => fields.values
  | _ => []

theorem Cell.mem_values_of_mem_parts {c : Cell} {v : Value} (part : v ∈ c.parts) : v ∈ c.values := by
  cases c with
  | list items frozen => exact part
  | tuple items => exact part
  | dict entries frozen => exact part
  | struct fields => exact part
  | _ => cases part

/-- An object that has parts is a container. -/
theorem Cell.isContainer_of_mem_parts {c : Cell} {v : Value} (part : v ∈ c.parts) : c.isContainer := by
  cases c with
  | text s => cases part
  | closure c => cases part
  | method m => cases part
  | frame f => cases part
  | _ => rfl

/-- All objects that the objects of a heap refer to are there. -/
def Closed (h : Heap) : Prop := ∀ a c, h.cell? a = some c → ∀ b ∈ c.children, ∃ d, h.cell? b = some d

theorem mem_slots_of_cell? {h : Heap} {a : Address} {c : Cell} (found : h.cell? a = some c) : some c ∈ h.slots.toList :=
  Array.mem_toList_iff.2 (Array.mem_of_getElem? (cell?_eq_some_iff.1 found))

theorem closed_iff_slots {h : Heap} :
    h.Closed ↔ ∀ slot ∈ h.slots.toList, ∀ c ∈ slot, ∀ b ∈ c.children, (h.cell? b).isSome := by
  simp only [Option.isSome_iff_exists]
  constructor
  · rintro closed _ mem c rfl
    obtain ⟨i, there⟩ := Array.mem_iff_getElem?.1 (Array.mem_toList_iff.1 mem)
    exact closed ⟨i⟩ c (cell?_eq_some_iff.2 there)
  · intro slots a c found
    exact slots _ (mem_slots_of_cell? found) c rfl

instance (h : Heap) : Decidable h.Closed := decidable_of_iff' _ closed_iff_slots

end Heap

namespace Value

open Heap (Cell)

/-- The object that a value refers to, if it does, is there. -/
def LiveIn (h : Heap) (v : Value) : Prop := ∀ a, v = .ref a → ∃ c, h.cell? a = some c

theorem liveIn_ref_iff {h : Heap} {a : Address} : (ref a).LiveIn h ↔ (h.cell? a).isSome := by
  rw [Option.isSome_iff_exists]
  exact ⟨fun live => live a rfl, fun there _ same => Value.ref.inj same ▸ there⟩

/-- From `v`, the containers of `path` lead to `w`, the innermost first. -/
inductive Leads (h : Heap) (v : Value) : List Address → Value → Prop where
  | self : Leads h v [] v
  | inside {path : List Address} {a : Address} {c : Cell} {w : Value} (outer : Leads h v path (.ref a))
      (found : h.cell? a = some c) (part : w ∈ c.parts) : Leads h v (a :: path) w

variable {h h' : Heap} {u v w : Value} {path inner : List Address} {a : Address} {c : Cell} {n : Nat}

theorem Leads.trans (first : Leads h u path v) (second : Leads h v inner w) : Leads h u (inner ++ path) w := by
  induction second with
  | self => exact first
  | inside _ found part ih => exact .inside ih found part

/-- What lies in a part lies in the container. -/
theorem Leads.of_part (found : h.cell? a = some c) (part : v ∈ c.parts) (leads : Leads h v path w) :
    Leads h (.ref a) (path ++ [a]) w :=
  (Leads.inside .self found part).trans leads

/-- What lies in a value is the value itself or lies in a part. -/
theorem Leads.eq_or_of_part (leads : Leads h v path w) :
    (path = [] ∧ w = v) ∨ ∃ a c u inner, v = .ref a ∧ h.cell? a = some c ∧ u ∈ c.parts ∧ path = inner ++ [a] ∧
      Leads h u inner w := by
  induction leads with
  | self => exact .inl ⟨rfl, rfl⟩
  | @inside path b d w _ found part ih =>
    refine .inr ?_
    rcases ih with ⟨rfl, same⟩ | ⟨a, c, u, inner, same, there, part', rfl, leads⟩
    · exact ⟨b, d, w, [], same.symm, found, part, rfl, .self⟩
    · exact ⟨a, c, u, b :: inner, same, there, part', rfl, .inside leads found part⟩

/-- In a value off the heap lies nothing but the value itself. -/
theorem Leads.eq_self (leads : Leads h v path w) (off : v.address? = Option.none) : path = [] ∧ w = v := by
  rcases leads.eq_or_of_part with same | ⟨a, _, _, _, rfl, _⟩
  · exact same
  · cases off

/-- What lies in a value depends on the objects in it alone. -/
theorem leads_congr (same : ∀ path a, Leads h v path (.ref a) → h'.cell? a = h.cell? a) :
    Leads h' v path w ↔ Leads h v path w := by
  constructor
  · intro leads
    induction leads with
    | self => exact .self
    | inside _ found part ih => exact .inside ih ((same _ _ ih).symm.trans found) part
  · intro leads
    induction leads with
    | self => exact .self
    | inside outer found part ih => exact .inside ih ((same _ _ outer).trans found) part

theorem LiveIn.part (closed : h.Closed) (found : h.cell? a = some c) (part : w ∈ c.parts) : w.LiveIn h := by
  rintro b rfl
  refine closed a c found b (List.mem_append_right _ (List.mem_filterMap.2 ⟨.ref b, ?_, rfl⟩))
  exact c.mem_values_of_mem_parts part

/-- All containers in a value lie under fewer than `n` others. -/
def NestsWithin (h : Heap) (n : Nat) (v : Value) : Prop :=
  ∀ path a c, Leads h v path (.ref a) → h.cell? a = some c → c.isContainer → path.length < n

/-- A container nests one deeper than its parts. -/
theorem NestsWithin.part (nests : NestsWithin h n (.ref a)) (found : h.cell? a = some c) (part : w ∈ c.parts) :
    ∃ m, n = m + 1 ∧ NestsWithin h m w := by
  have pos : 0 < n := nests _ _ _ .self found (c.isContainer_of_mem_parts part)
  obtain ⟨m, rfl⟩ := Nat.exists_eq_succ_of_ne_zero (Nat.ne_of_gt pos)
  refine ⟨m, rfl, fun path b d leads there container => ?_⟩
  have outside := nests _ b d (leads.of_part found part) there container
  rw [List.length_append] at outside
  exact Nat.lt_of_succ_lt_succ outside

/-- In a value that is no container there are no containers. -/
theorem nestsWithin_of_not_container (plain : ∀ a c, v = .ref a → h.cell? a = some c → ¬ c.isContainer) :
    NestsWithin h n v := by
  intro path b d leads there container
  rcases leads.eq_or_of_part with ⟨-, same⟩ | ⟨a, c, w, inner, same, found, part, -, -⟩
  · exact (plain b d same.symm there container).elim
  · exact (plain a c same found (c.isContainer_of_mem_parts part)).elim

theorem nestsWithin_of_parts (found : h.cell? a = some c) (parts : ∀ w ∈ c.parts, NestsWithin h n w) :
    NestsWithin h (n + 1) (.ref a) := by
  intro path b d leads there container
  rcases leads.eq_or_of_part with ⟨rfl, -⟩ | ⟨a', c', w, inner, same, found', part, rfl, below⟩
  · exact Nat.succ_pos n
  · cases same
    obtain rfl := Option.some.inj (found.symm.trans found')
    rw [List.length_append]
    exact Nat.succ_lt_succ (parts w part inner b d below there container)

end Value

end Scriptlet
