import Mathlib.Logic.Relation
import Scriptlet.Proofs.Heap.Reach

/-!
# Collections are exact

What an object refers to is said here sort by sort, and an object is reachable if such references lead to it from a
root. Marking is a loop over waiting addresses, which may wait many times and in any order. However the loop picks the
next one, it ends, and it ends with the same marks: those of the slots that are reachable. So a collection frees what
is not reachable, all of it, and nothing else.
-/

namespace Scriptlet

theorem Value.address?_eq_some_iff {v : Value} {a : Address} : v.address? = some a ↔ v = .ref a := by
  cases v <;> simp [address?]

namespace Heap

variable {a : Address} {h : Heap} {roots : List Address} {marks : Array Bool}

/-! ## References -/

/-- An object refers to the object at an address. -/
inductive Cell.RefersTo : Cell → Address → Prop where
  | listItem {items : Array Value} {frozen : Bool} {a : Address} (h : .ref a ∈ items) :
      RefersTo (.list items frozen) a
  | tupleItem {items : Array Value} {a : Address} (h : .ref a ∈ items) : RefersTo (.tuple items) a
  | dictIndex {entries : OrderedMap Key (Value × Value)} {frozen : Bool} {k : Key} {v : Value} {a : Address}
      (h : (k, .ref a, v) ∈ entries.entries) : RefersTo (.dict entries frozen) a
  | dictValue {entries : OrderedMap Key (Value × Value)} {frozen : Bool} {k : Key} {i : Value} {a : Address}
      (h : (k, i, .ref a) ∈ entries.entries) : RefersTo (.dict entries frozen) a
  | field {fields : OrderedMap String Value} {x : String} {a : Address}
      (h : (x, .ref a) ∈ fields.entries) : RefersTo (.struct fields) a
  | default {c : Closure} {a : Address} (h : .ref a ∈ c.defaults) : RefersTo (.closure c) a
  | capturedFrame {c : Closure} {a : Address} (h : c.frame = some a) : RefersTo (.closure c) a
  | receiver {m : BoundMethod} {a : Address} (h : m.receiver = .ref a) : RefersTo (.method m) a
  | assigned {f : Frame} {x : String} {a : Address} (h : (x, .ref a) ∈ f.vars.entries) :
      RefersTo (.frame f) a
  | parent {f : Frame} {a : Address} (h : f.parent = some a) : RefersTo (.frame f) a

/-- A reference is one of the values that an object holds or the frame that it holds on to. -/
theorem Cell.mem_children {c : Cell} : a ∈ c.children ↔ c.frame? = some a ∨ .ref a ∈ c.values := by
  simp [children, List.mem_filterMap, Value.address?_eq_some_iff]

theorem Cell.mem_children_iff {c : Cell} : a ∈ c.children ↔ c.RefersTo a := by
  rw [mem_children]
  constructor
  · intro h
    cases c with
    | text s => simp [frame?, values] at h
    | list items frozen => exact .listItem (by simpa [frame?, values] using h)
    | tuple items => exact .tupleItem (by simpa [frame?, values] using h)
    | dict entries frozen =>
      simp only [frame?, values, OrderedMap.values, List.mem_flatMap, List.mem_map] at h
      obtain h | ⟨_, ⟨⟨k, i, v⟩, he, rfl⟩, h⟩ := h
      · cases h
      · obtain h | h : .ref a = i ∨ .ref a = v := by simpa using h
        · exact .dictIndex (h ▸ he)
        · exact .dictValue (h ▸ he)
    | struct fields =>
      obtain ⟨x, hx⟩ : ∃ x, (x, Value.ref a) ∈ fields.entries := by
        simpa [frame?, values, OrderedMap.values] using h
      exact .field hx
    | closure c =>
      obtain h | h := h
      · exact .capturedFrame h
      · exact .default h
    | method m => exact .receiver (by simpa [frame?, values, eq_comm] using h)
    | frame f =>
      obtain h | h := h
      · exact .parent h
      · obtain ⟨x, hx⟩ : ∃ x, (x, Value.ref a) ∈ f.vars.entries := by
          simpa [values, OrderedMap.values] using h
        exact .assigned hx
  · intro h
    cases h with
    | listItem h => exact .inr (by simpa [values] using h)
    | tupleItem h => exact .inr (by simpa [values] using h)
    | dictIndex h => exact .inr (List.mem_flatMap.2 ⟨_, List.mem_map_of_mem h, by simp⟩)
    | dictValue h => exact .inr (List.mem_flatMap.2 ⟨_, List.mem_map_of_mem h, by simp⟩)
    | field h => exact .inr (List.mem_map_of_mem h)
    | default h => exact .inr h
    | capturedFrame h => exact .inl h
    | receiver h => exact .inr (by simp [values, h])
    | assigned h => exact .inr (List.mem_map_of_mem h)
    | parent h => exact .inl h

/-- The object at the first address is there and refers to the second one. -/
def Refers (h : Heap) (a b : Address) : Prop := ∃ c, h.cell? a = some c ∧ c.RefersTo b

/-- References lead from one of the roots to an address. -/
def Reachable (h : Heap) (roots : List Address) (a : Address) : Prop :=
  ∃ r ∈ roots, Relation.ReflTransGen h.Refers r a

theorem mem_children_iff_refers {b : Address} : b ∈ h.children a ↔ h.Refers a b := by
  unfold children Refers
  cases h.cell? a with
  | none => simp
  | some c => simp [Cell.mem_children_iff]

theorem reaches_iff_reachable : h.Reaches roots a ↔ h.Reachable roots a := by
  constructor
  · intro ha
    induction ha with
    | root ha => exact ⟨_, ha, .refl⟩
    | child _ hb ih =>
      obtain ⟨r, hr, path⟩ := ih
      exact ⟨r, hr, path.tail (mem_children_iff_refers.1 hb)⟩
  · rintro ⟨r, hr, path⟩
    induction path with
    | refl => exact .root hr
    | tail _ hb ih => exact .child ih (mem_children_iff_refers.2 hb)

/-! ## The loop of a marking -/

/-- A marking under way. -/
structure Worklist where
  /-- The addresses that are still to be looked at, with repetitions. -/
  waiting : List Address
  marks : Array Bool

namespace Worklist

/-- Nothing is marked and the roots wait. -/
def start (h : Heap) (roots : List Address) : Worklist := ⟨roots, Array.replicate h.slots.size false⟩

/-- A round of the loop takes any of the waiting addresses. If its slot has a mark or does not exist, nothing else
happens. Otherwise it is marked, and all that its object refers to waits. -/
inductive Round (h : Heap) : Worklist → Worklist → Prop where
  | skip {waiting rest : List Address} {marks : Array Bool} {a : Address} (taken : waiting.Perm (a :: rest))
      (ha : unmarked marks a = false) : Round h ⟨waiting, marks⟩ ⟨rest, marks⟩
  | visit {waiting rest : List Address} {marks : Array Bool} {a : Address} (taken : waiting.Perm (a :: rest))
      (ha : unmarked marks a = true) :
      Round h ⟨waiting, marks⟩ ⟨h.children a ++ rest, marks.setIfInBounds a.index true⟩

variable {h : Heap} {roots : List Address} {w w' : Worklist}

/-- Each round marks a slot, or fewer addresses wait after it and no mark is lost. -/
theorem Round.decreases (round : Round h w w') :
    Prod.Lex (· < ·) (· < ·) (unmarkedCount w'.marks, w'.waiting.length)
      (unmarkedCount w.marks, w.waiting.length) := by
  cases round with
  | skip taken ha =>
    have one_less := taken.length_eq
    exact .right _ (by simp_all)
  | visit taken ha =>
    have one_less := unmarkedCount_set ha
    exact .left _ _ (Nat.lt_of_succ_le (Nat.le_of_eq one_less))

/-- No marking goes on forever. -/
theorem wellFounded_round (h : Heap) : WellFounded fun w' w => Round h w w' := by
  have lex := (Prod.lex Nat.lt_wfRel Nat.lt_wfRel).wf
  exact Subrelation.wf (Round.decreases (h := h))
    (InvImage.wf (fun w : Worklist => (unmarkedCount w.marks, w.waiting.length)) lex)

/-- The loop ends only when nothing waits. -/
theorem waiting_eq_nil (ended : ∀ w', ¬ Round h w w') : w.waiting = [] := by
  obtain ⟨waiting, marks⟩ := w
  cases waiting with
  | nil => rfl
  | cons a rest =>
    cases ha : unmarked marks a with
    | false => exact absurd (.skip (.refl _) ha) (ended _)
    | true => exact absurd (.visit (.refl _) ha) (ended _)

end Worklist

theorem Marking.perm {waiting waiting' : List Address}
    (m : Marking h roots waiting marks) (p : waiting.Perm waiting') : Marking h roots waiting' marks := by
  have same : ∀ a, a ∈ waiting' ↔ a ∈ waiting := fun a => p.mem_iff.symm
  exact ⟨m.size, by simpa only [same] using m.sound, by simpa only [same] using m.roots,
    by simpa only [same] using m.closed⟩

/-- An address whose slot is marked or does not exist need not wait. -/
theorem Marking.skip {rest : List Address}
    (m : Marking h roots (a :: rest) marks) (ha : unmarked marks a = false) : Marking h roots rest marks := by
  have keep : ∀ b, b.index < h.slots.size → Marked marks b ∨ b ∈ a :: rest → Marked marks b ∨ b ∈ rest := by
    intro b hlt hb
    by_cases hm : Marked marks b
    · exact .inl hm
    · have hu : unmarked marks b = true := unmarked_iff.2 ⟨m.size ▸ hlt, hm⟩
      refine .inr ((List.mem_cons.1 (hb.resolve_left hm)).resolve_left ?_)
      rintro rfl
      rw [hu] at ha
      cases ha
  exact ⟨m.size, fun b hb => m.sound b (hb.imp_right (List.mem_cons_of_mem a)),
    fun b hb hlt => keep b hlt (m.roots b hb hlt),
    fun b hb c hc hlt => keep c hlt (m.closed b hb c hc hlt)⟩

theorem Worklist.Round.marking {w w' : Worklist} (round : Round h w w')
    (m : Marking h roots w.waiting w.marks) : Marking h roots w'.waiting w'.marks := by
  cases round with
  | skip taken ha => exact (m.perm taken).skip ha
  | visit taken ha => exact (m.perm taken).step (unmarked_iff.1 ha).1

/-- Marks are known by the slots that have one. -/
theorem marks_eq {marks' : Array Bool} (size : marks.size = marks'.size)
    (same : ∀ a, Marked marks a ↔ Marked marks' a) : marks = marks' := by
  refine Array.ext size fun i hi hi' => Bool.eq_iff_iff.2 ?_
  simpa [Marked, hi, hi'] using same ⟨i⟩

/-- Every marking that has ended has the marks of the slots that are reachable. -/
theorem Marking.eq_mark (m : Marking h roots [] marks) : marks = h.mark roots := by
  have size := m.size.trans (marking_mark h roots).size.symm
  exact marks_eq size fun a => m.marked_iff.trans marked_mark_iff.symm

/-- However the loop picks what it takes next, it ends with nothing waiting and with the marks that were computed. -/
theorem Worklist.eq_of_ended {w : Worklist}
    (run : Relation.ReflTransGen (Round h) (start h roots) w) (ended : ∀ w', ¬ Round h w w') :
    w = ⟨[], h.mark roots⟩ := by
  have marking : Marking h roots w.waiting w.marks := by
    clear ended
    induction run with
    | refl => exact marking_start h roots
    | tail _ round ih => exact round.marking ih
  obtain ⟨waiting, marks⟩ := w
  obtain rfl : waiting = [] := waiting_eq_nil ended
  exact congrArg (Worklist.mk []) marking.eq_mark

/-! ## The collection -/

/-- The addresses of all slots. -/
def addresses (h : Heap) : List Address := (List.range h.slots.size).map Address.mk

theorem mem_addresses : a ∈ h.addresses ↔ a.index < h.slots.size := by
  simp only [addresses, List.mem_map, List.mem_range]
  exact ⟨fun ⟨i, hi, e⟩ => e ▸ hi, fun hi => ⟨a.index, hi, rfl⟩⟩

/-- The heap `h'` is what is left of `h` after all has been freed that the roots do not reach, and so many objects
were freed. -/
structure Reclaimed (h : Heap) (roots : List Address) (freed : Nat) (h' : Heap) : Prop where
  size : h'.slots.size = h.slots.size
  kept : ∀ a, h.Reachable roots a → h'.cell? a = h.cell? a
  emptied : ∀ a, ¬ h.Reachable roots a → h'.cell? a = none
  /-- The slots that held an object and hold none any more. -/
  freed : freed = h.addresses.countP fun a => (h.cell? a).isSome && (h'.cell? a).isNone

theorem size_discard (h : Heap) (a : Address) : (h.discard a).slots.size = h.slots.size := by
  unfold discard
  split <;> simp

theorem size_collect (h : Heap) (roots : List Address) : (h.collect roots).2.slots.size = h.slots.size := by
  have size (dead : List Address) (h : Heap) : (dead.foldl discard h).slots.size = h.slots.size := by
    induction dead generalizing h with
    | nil => rfl
    | cons a dead ih => exact (ih (h.discard a)).trans (h.size_discard a)
  exact size _ h

/-- An object is freed exactly if its slot is empty after the collection. -/
theorem isNone_cell?_collect (live : (h.cell? a).isSome) :
    ((h.collect roots).2.cell? a).isNone ↔ ¬ h.Reaches roots a := by
  by_cases ha : h.Reaches roots a
  · simp [cell?_collect_of_reaches ha, ha, Option.isSome_iff_ne_none.1 live]
  · simp [cell?_collect_of_not_reaches ha, ha]

theorem fst_collect (h : Heap) (roots : List Address) : (h.collect roots).1 =
    h.addresses.countP fun a => (h.cell? a).isSome && ((h.collect roots).2.cell? a).isNone := by
  have counted : (h.collect roots).1 = (h.unreached (h.mark roots)).length := rfl
  rw [counted, unreached, ← List.countP_eq_length_filter]
  refine List.countP_congr fun a ha => ?_
  have hlt : a.index < h.slots.size := mem_addresses.1 ha
  rw [Bool.and_eq_true, Bool.and_eq_true, unmarked_iff, (marking_mark h roots).size, marked_mark_iff]
  constructor
  · rintro ⟨⟨-, hm⟩, live⟩
    exact ⟨live, (isNone_cell?_collect live).2 fun ha => hm ⟨hlt, ha⟩⟩
  · rintro ⟨live, gone⟩
    exact ⟨⟨hlt, fun ha => (isNone_cell?_collect live).1 gone ha.2⟩, live⟩

theorem reclaimed_collect (h : Heap) (roots : List Address) :
    h.Reclaimed roots (h.collect roots).1 (h.collect roots).2 where
  size := h.size_collect roots
  kept _ ha := cell?_collect_of_reaches (reaches_iff_reachable.2 ha)
  emptied _ ha := cell?_collect_of_not_reaches fun hr => ha (reaches_iff_reachable.1 hr)
  freed := h.fst_collect roots

/-- A collection keeps what it does not free reachable, so another one finds nothing to free. -/
theorem collect_collect (h : Heap) (roots : List Address) :
    (h.collect roots).2.collect roots = (0, (h.collect roots).2) := by
  have none_dead : (h.collect roots).2.unreached ((h.collect roots).2.mark roots) = [] := by
    refine List.eq_nil_iff_forall_not_mem.2 fun a ha => ?_
    obtain ⟨live, lost⟩ := mem_unreached.1 ha
    obtain ⟨c, hc⟩ := Option.isSome_iff_exists.1 live
    refine lost ((cell?_collect_eq_some.1 hc).1.congr fun b hb => ?_)
    simp only [children, cell?_collect_of_reaches hb]
  rw [collect, none_dead]
  rfl

/-- Marking ends, whichever of the waiting addresses it takes first, and has then marked exactly the slots that
references reach from the roots. A collection leaves each reachable object as it is and every other slot empty, says
how many objects it has freed, and a second one with the same roots frees nothing. -/
theorem collection_exact (h : Heap) (roots : List Address) :
    (WellFounded fun w' w => Worklist.Round h w w') ∧
    (∀ w, Relation.ReflTransGen (Worklist.Round h) (.start h roots) w → (∀ w', ¬ Worklist.Round h w w') →
      w = ⟨[], h.mark roots⟩) ∧
    (∀ a, Marked (h.mark roots) a ↔ a.index < h.slots.size ∧ h.Reachable roots a) ∧
    h.Reclaimed roots (h.collect roots).1 (h.collect roots).2 ∧
    (h.collect roots).2.collect roots = (0, (h.collect roots).2) := by
  refine ⟨Worklist.wellFounded_round h, fun w => Worklist.eq_of_ended, fun a => ?_,
    h.reclaimed_collect roots, h.collect_collect roots⟩
  rw [marked_mark_iff, reaches_iff_reachable]

end Heap

end Scriptlet
