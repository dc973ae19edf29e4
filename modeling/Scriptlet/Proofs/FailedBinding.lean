import Scriptlet.Proofs.Machine.Steps

/-!
# Failed binding

Binding makes the collectors last, the tuple before the dictionary, and takes nothing back. So when binding fails, no
object of it stays on the heap, with one exception: if the dictionary is refused after the tuple was made, the tuple
stays.
-/

namespace Scriptlet

open Call (Args)
open Heap (Cell)

/-! ## Slots and free list -/

namespace Heap

/-- The slots and the free list are the same. -/
structure SameSlots (h h' : Heap) : Prop where
  slots : h'.slots = h.slots
  free : h'.free = h.free

variable {h h' : Heap}

theorem SameSlots.refl (h : Heap) : h.SameSlots h := ⟨rfl, rfl⟩

/-- An allocation fails, for whatever reason, and fills no slot, or it takes a slot from the free list or adds one. -/
theorem allocate_slots (c : Cell) (h : Heap) :
    (∃ f h', allocate c h = .error f h' ∧ h.SameSlots h') ∨ ∃ a h', allocate c h = .ok a h' ∧ ¬ h.SameSlots h' := by
  unfold allocate
  cases charged : h.meter.charge c.size with
  | error use => exact .inl ⟨_, h, rfl, .refl h⟩
  | ok meter =>
    simp only [place]
    cases free : h.free with
    | nil =>
      refine .inr ⟨_, _, rfl, fun same => ?_⟩
      have sizes := congrArg Array.size same.slots
      simp at sizes
    | cons a rest =>
      by_cases there : a.index < h.slots.size
      · refine .inr ⟨a, _, if_pos there, fun same => ?_⟩
        have lengths := congrArg List.length (same.free.trans free)
        simp at lengths
      · exact .inl ⟨_, _, if_neg there, rfl, free.symm⟩

theorem sameSlots_of_refused {c : Cell} {f : Failure} (refused : allocate c h = .error f h') : h.SameSlots h' := by
  obtain ⟨_, _, failed, same⟩ | ⟨_, _, made, -⟩ := allocate_slots c h
  · rw [failed] at refused
    cases refused
    exact same
  · rw [made] at refused
    cases refused

theorem not_sameSlots_of_made {c : Cell} {a : Address} (made : allocate c h = .ok a h') : ¬ h.SameSlots h' := by
  obtain ⟨_, _, failed, -⟩ | ⟨_, _, ran, changed⟩ := allocate_slots c h
  · rw [failed] at made
    cases made
  · rw [ran] at made
    cases made
    exact changed

theorem inspect_eq_error {α : Type} {x : Heap → Attempt α} {f : Failure} :
    inspect x h = .error f h' ↔ (∃ e, x h = .error e ∧ e.failure = f) ∧ h' = h := by
  unfold inspect
  cases x h <;> simp [eq_comm]

end Heap

namespace Code.Signature

variable {s : Signature} {callee : String} {defaults : List Value} {args : Args} {h h' : Heap} {f : Failure}

/-! ## Collectors -/

/-- The tuple of the positional arguments that are left over. -/
def restCell (s : Signature) (args : Args) : Cell := .tuple (args.positional.drop s.positional.length).toArray

/-- The dictionary of the collected keywords. -/
def keywordsCell (collected : List (String × Value)) : Cell :=
  .dict (.ofList (collected.map fun kv => (Key.str kv.1, (Value.text kv.1, kv.2)))) false

/-- Makes the object for a collector, if there is one. -/
def collectInto (collector : Option String) (c : Cell) : HeapM (List (String × Value)) :=
  match collector with
  | none => return []
  | some x => do
    let a ← Heap.allocate c
    return [(x, .ref a)]

theorem collectRest_eq (s : Signature) (args : Args) : s.collectRest args = collectInto s.rest (s.restCell args) := rfl

theorem collectKeywords_eq (s : Signature) (collected : List (String × Value)) :
    s.collectKeywords collected = collectInto s.keywords (keywordsCell collected) := rfl

theorem collectInto_eq_error {collector : Option String} {c : Cell} :
    collectInto collector c h = .error f h' ↔ collector.isSome ∧ Heap.allocate c h = .error f h' := by
  cases collector with
  | none =>
    constructor
    · intro failed
      cases failed
    · rintro ⟨some, -⟩
      cases some
  | some x =>
    rw [collectInto, bind_eq_error]
    constructor
    · rintro (failed | ⟨a, h₁, -, failed⟩)
      · exact ⟨rfl, failed⟩
      · cases failed
    · rintro ⟨-, failed⟩
      exact .inl failed

/-- Without a collector nothing happens. -/
theorem collectInto_ok_cases {collector : Option String} {c : Cell} {es : List (String × Value)}
    (made : collectInto collector c h = .ok es h') :
    (collector = none ∧ h' = h) ∨ ∃ x a, collector = some x ∧ Heap.allocate c h = .ok a h' := by
  cases collector with
  | none =>
    cases made
    exact .inl ⟨rfl, rfl⟩
  | some x =>
    obtain ⟨a, h₁, allocated, done⟩ := bind_eq_ok.1 made
    cases done
    exact .inr ⟨x, a, rfl, allocated⟩

/-! ## What a failed binding leaves -/

/-- How the general way of binding fails: the arguments do not fit, or the object for a collector is refused. -/
theorem bindFully_eq_error : s.bindFully callee defaults args h = .error f h' ↔
    ((∃ e, s.settle callee defaults args = .error e ∧ e.failure = f) ∧ h' = h) ∨
    ∃ named collected, s.settle callee defaults args = .ok (named, collected) ∧
      (collectInto s.rest (s.restCell args) h = .error f h' ∨
        ∃ rest h₁, collectInto s.rest (s.restCell args) h = .ok rest h₁ ∧
          collectInto s.keywords (keywordsCell collected) h₁ = .error f h') := by
  unfold bindFully
  simp only [bind_eq_error, Heap.inspect_eq_error, Heap.inspect_eq_ok, List.splitAt_eq, collectRest_eq,
    collectKeywords_eq, Prod.exists]
  refine or_congr_right ⟨?_, ?_⟩
  · rintro ⟨named, collected, _, ⟨settled, rfl⟩, failed | ⟨rest, h₁, made, failed | ⟨_, _, _, failed⟩⟩⟩
    · exact ⟨named, collected, settled, .inl failed⟩
    · exact ⟨named, collected, settled, .inr ⟨rest, h₁, made, failed⟩⟩
    · cases failed
  · rintro ⟨named, collected, settled, failed | ⟨rest, h₁, made, failed⟩⟩
    · exact ⟨named, collected, h, ⟨settled, rfl⟩, .inl failed⟩
    · exact ⟨named, collected, h, ⟨settled, rfl⟩, .inr ⟨rest, h₁, made, .inl failed⟩⟩

/-- The arguments fit and the tuple of the positional arguments that are left over has been made, but then the dictionary
of the keywords cannot be made. The tuple stays where it is. -/
inductive Strands (s : Signature) (callee : String) (defaults : List Value) (args : Args) (h : Heap) :
    Failure → Heap → Prop where
  | intro {x y : String} {named collected : List (String × Value)} {a : Address} {h₁ h' : Heap} {f : Failure}
      (rest : s.rest = some x) (keywords : s.keywords = some y)
      (fits : s.settle callee defaults args = .ok (named, collected))
      (made : Heap.allocate (s.restCell args) h = .ok a h₁)
      (refused : Heap.allocate (keywordsCell collected) h₁ = .error f h') (stays : h₁.SameSlots h') :
      Strands s callee defaults args h f h'

/-- A failure of the general way leaves the slots as they were, or a tuple is stranded. -/
theorem bindFully_leaves (failed : s.bindFully callee defaults args h = .error f h') :
    h.SameSlots h' ∨ s.Strands callee defaults args h f h' := by
  rcases bindFully_eq_error.1 failed with ⟨-, rfl⟩ | ⟨named, collected, settled, refused | ⟨rest, h₁, made, refused⟩⟩
  · exact .inl (.refl h')
  · obtain ⟨-, refused⟩ := collectInto_eq_error.1 refused
    exact .inl (Heap.sameSlots_of_refused refused)
  · obtain ⟨given, refused⟩ := collectInto_eq_error.1 refused
    have stays : h₁.SameSlots h' := Heap.sameSlots_of_refused refused
    rcases collectInto_ok_cases made with ⟨-, rfl⟩ | ⟨x, a, hx, made⟩
    · exact .inl stays
    · obtain ⟨y, hy⟩ := Option.isSome_iff_exists.1 given
      exact .inr ⟨hx, hy, settled, made, refused, stays⟩

/-- For every signature, all defaults, all arguments and every heap with whatever limits: if binding fails, for whatever
reason, the slots and the free list of the heap are as before, unless there are both collectors, the arguments fit,
and the tuple was made but the dictionary refused. In this case, and only then, the tuple stays. -/
theorem failed_bind_leaves_tuple_iff (s : Signature) (callee : String) (defaults : List Value) (args : Args)
    (h : Heap) (f : Failure) (h' : Heap) :
    (s.bind callee defaults args h = .error f h' ∧ ¬ h.SameSlots h') ↔ s.Strands callee defaults args h f h' := by
  constructor
  · rintro ⟨failed, changed⟩
    unfold bind at failed
    split at failed
    · obtain ⟨-, rfl⟩ := Heap.inspect_eq_error.1 failed
      exact absurd (.refl h') changed
    · exact (bindFully_leaves failed).resolve_left changed
  · rintro @⟨x, y, named, collected, a, h₁, _, _, rest, keywords, settled, made, refused, stays⟩
    have general : ¬ (s.onlyPositional && args.keywords.isEmpty) = true := by simp [onlyPositional, rest]
    have failed : s.bindFully callee defaults args h = .error f h' := by
      refine bindFully_eq_error.2 (.inr ⟨named, collected, settled, .inr ⟨[(x, .ref a)], h₁, ?_, ?_⟩⟩)
      · rw [rest]
        exact bind_of_ok made
      · exact collectInto_eq_error.2 ⟨by rw [keywords]; rfl, refused⟩
    refine ⟨?_, fun same => Heap.not_sameSlots_of_made made ?_⟩
    · unfold bind
      rw [if_neg general]
      exact failed
    · exact ⟨stays.slots.symm.trans same.slots, stays.free.symm.trans same.free⟩

/-- A function with both collectors, called when one object is allowed. -/
theorem failed_bind_leaves_tuple :
    let s : Signature := { rest := some "xs", keywords := some "ys" }
    let h := Heap.empty (.start { maxAllocations := some 1 })
    ∃ f h', s.bind "f" [] ⟨[.none], [("y", .none)]⟩ h = .error f h' ∧ f = .ofCause (.exhausted (.allocation 1 2)) ∧
      h.slots = #[] ∧ h'.slots = #[some (.tuple #[.none])] :=
  ⟨_, _, rfl, rfl, rfl, rfl⟩

end Code.Signature

end Scriptlet
