import Scriptlet.Proofs.Code.ParallelResolution
import Scriptlet.Proofs.Heap.Alike
import Scriptlet.Proofs.Machine.Steps
import Scriptlet.Proofs.Soundness.Store

/-!
# Two stores

Two stores that hold the same, each at addresses of its own. They may have collected at different times, so an
object of the one stands for an object of the other that has come to lie elsewhere, and either may still hold
objects that the other one has freed. Function values stand for each other if their functions do, which may be at
different places of two tables. Every operation does the same to both of them.
-/

namespace Scriptlet

open Heap (Cell Frame)

/-! ## Meters -/

namespace Budget.Meter

/-- Two meters that limit neither memory nor time, and that agree in all but the interval between collections
and the memory in use. -/
inductive SameUpToCollection : Meter → Meter → Prop where
  | depthOnly (maxDepth : Option Nat) : SameUpToCollection (.depthOnly maxDepth) (.depthOnly maxDepth)
  | full (limits : Limits) (counters : Counters) (interval : Option Nat) (memory : Nat)
    (openMemory : limits.maxMemory = none) (openDuration : limits.maxDuration = none) :
    SameUpToCollection (.full limits counters)
      (.full { limits with collectionInterval := interval } { counters with memory })

namespace SameUpToCollection

variable {m m' : Meter}

theorem depthLimit_eq (h : m.SameUpToCollection m') : m.depthLimit = m'.depthLimit := by
  cases h <;> rfl

/-- Both meters refuse an allocation, or both charge it, whatever the sizes are. -/
theorem charge (h : m.SameUpToCollection m') (size size' : Nat) :
    (∃ use, m.charge size = .error use ∧ m'.charge size' = .error use) ∨
    ∃ k k', m.charge size = .ok k ∧ m'.charge size' = .ok k' ∧ k.SameUpToCollection k' := by
  cases h with
  | depthOnly maxDepth => exact .inr ⟨_, _, rfl, rfl, .depthOnly maxDepth⟩
  | full limits counters interval memory openMemory openDuration =>
    obtain ⟨maxOperations, maxAllocations, maxDuration, maxMemory, interval₀, maxDepth⟩ := limits
    obtain rfl : maxMemory = none := openMemory
    simp only [Meter.charge, Option.filter_none]
    cases maxAllocations.filter (· ≤ counters.allocations) with
    | some limit => exact .inl ⟨_, rfl, rfl⟩
    | none => exact .inr ⟨_, _, rfl, rfl, .full _ _ interval _ rfl openDuration⟩

/-- Both meters count a statement alike. -/
theorem tick (h : m.SameUpToCollection m') : m.tick.1 = m'.tick.1 ∧ m.tick.2.SameUpToCollection m'.tick.2 := by
  cases h with
  | depthOnly maxDepth => exact ⟨rfl, .depthOnly maxDepth⟩
  | full limits counters interval memory openMemory openDuration =>
    obtain ⟨maxOperations, maxAllocations, maxDuration, maxMemory, interval₀, maxDepth⟩ := limits
    obtain rfl : maxDuration = none := openDuration
    cases maxOperations with
    | none => exact ⟨rfl, .full _ counters interval memory openMemory rfl⟩
    | some limit =>
      simp only [Meter.tick, Option.isSome_some, if_true]
      cases (some limit).filter (· < counters.operations + 1) with
      | some limit => exact ⟨rfl, .full _ _ interval memory openMemory rfl⟩
      | none => exact ⟨rfl, .full _ _ interval memory openMemory rfl⟩

theorem refund_left (h : m.SameUpToCollection m') (size : Nat) : (m.refund size).SameUpToCollection m' := by
  cases h with
  | depthOnly maxDepth => exact .depthOnly maxDepth
  | full limits counters interval memory openMemory openDuration =>
    exact .full limits { counters with memory := counters.memory - size } interval memory openMemory
      openDuration

theorem refund_right (h : m.SameUpToCollection m') (size : Nat) : m.SameUpToCollection (m'.refund size) := by
  cases h with
  | depthOnly maxDepth => exact .depthOnly maxDepth
  | full limits counters interval memory openMemory openDuration =>
    exact .full limits counters interval (memory - size) openMemory openDuration

end SameUpToCollection

end Budget.Meter

/-! ## Stores -/

/-- The second library has the functions of the first one at new places, and the same host functions. -/
structure Library.Renumbered (ρ : Renumbering) (l l' : Library) : Prop extends Library.SameHost l l' where
  functions : Code.Renumbered ρ l.functions l'.functions

namespace Matching

variable {M N : Matching}

/-- What stands for each other, with the host functions of a library, and its definitions and their new places.
All words are known. -/
def linkedTo (M : Matching) (l : Library) (ρ : Renumbering) : Matching :=
  { M with
    word := fun _ => True
    native := fun id => id.index < l.natives.size
    function := fun id id' n => id' = ρ id ∧
      ∃ f, l.functions[id.index]? = some f ∧ f.signature.defaultsCount = n }

theorem Le.linkedTo (h : M.Le N) (l : Library) (ρ : Renumbering) : (M.linkedTo l ρ).Le (N.linkedTo l ρ) :=
  ⟨h.object, h.frame, h.captured, id, id, id⟩

/-- Two more objects stand for each other. -/
def withObject (M : Matching) (a b : Address) : Matching :=
  { M with object := fun x y => M.object x y ∨ x = a ∧ y = b }

/-- Two more frames stand for each other. -/
def withFrame (M : Matching) (a b : Address) : Matching :=
  { M with frame := fun x y => M.frame x y ∨ x = a ∧ y = b }

/-- A function was made in the calls of two frames that stand for each other. -/
def withCaptured (M : Matching) (a b : Address) : Matching :=
  { M with captured := fun x y => M.captured x y ∨ x = a ∧ y = b }

theorem le_withObject (M : Matching) (a b : Address) : M.Le (M.withObject a b) :=
  ⟨.inl, id, id, id, id, id⟩

theorem le_withFrame (M : Matching) (a b : Address) : M.Le (M.withFrame a b) :=
  ⟨id, .inl, id, id, id, id⟩

theorem le_withCaptured (M : Matching) (a b : Address) : M.Le (M.withCaptured a b) :=
  ⟨id, id, .inl, id, id, id⟩

/-- Two stores hold the same, as far as things stand for each other, and allow the same. -/
structure stores (M : Matching) (l : Library) (ρ : Renumbering) (s t : Store) : Prop where
  heaps : Alike (M.linkedTo l ρ) s.heap t.heap
  tidy : s.heap.Tidy
  tidy' : t.heap.Tidy
  meters : s.heap.meter.SameUpToCollection t.heap.meter

namespace stores

variable {l : Library} {ρ : Renumbering} {s t : Store} {c d : Cell} {a b : Address} {k k' : Heap}

/-- An allocation is refused on both sides, or fills a slot that held nothing on both sides. -/
theorem allocate_cases (S : M.stores l ρ s t) (c d : Cell) :
    (∃ e, Heap.allocate c s.heap = .error (.raised e) s.heap ∧
      Heap.allocate d t.heap = .error (.raised e) t.heap) ∨
    ∃ a b k k', Heap.allocate c s.heap = .ok a k ∧ Heap.allocate d t.heap = .ok b k' ∧
      s.heap.Placed c a k ∧ t.heap.Placed d b k' ∧ k.meter.SameUpToCollection k'.meter := by
  have left := Heap.allocate_cases S.tidy c
  have right := Heap.allocate_cases S.tidy' d
  obtain ⟨use, hm, hm'⟩ | ⟨meter, meter', hm, hm', same⟩ := S.meters.charge c.size d.size
  · rw [hm] at left
    rw [hm'] at right
    obtain ⟨_, ⟨⟩, ha⟩ | ⟨_, _, _, ⟨⟩, -⟩ := left
    obtain ⟨_, ⟨⟩, hb⟩ | ⟨_, _, _, ⟨⟩, -⟩ := right
    exact .inl ⟨_, ha, hb⟩
  · rw [hm] at left
    rw [hm'] at right
    obtain ⟨_, ⟨⟩, -⟩ | ⟨_, a, k, ⟨⟩, ha, p, rfl⟩ := left
    obtain ⟨_, ⟨⟩, -⟩ | ⟨_, b, k', ⟨⟩, hb, p', rfl⟩ := right
    exact .inr ⟨a, b, k, k', ha, hb, p, p', same⟩

/-- Matching objects are put on both heaps. -/
theorem placed (S : M.stores l ρ s t) (p : s.heap.Placed c a k) (p' : t.heap.Placed d b k')
    (meters : k.meter.SameUpToCollection k'.meter) (hcd : (M.linkedTo l ρ).cell c d) :
    (M.withObject a b).stores l ρ { s with heap := k } { t with heap := k' } where
  heaps := by
    have le := (M.le_withObject a b).linkedTo l ρ
    refine S.heaps.placed p p' le (fun hxy => ?_) .inl id
    obtain hxy | ⟨rfl, rfl⟩ := hxy
    · exact .inl hxy
    · exact .inr ⟨rfl, rfl, hcd.mono le⟩
  tidy := p.tidy
  tidy' := p'.tidy
  meters := meters

/-- Matching frames are put on both heaps. -/
theorem placed_frame (S : M.stores l ρ s t) {f g : Frame} (p : s.heap.Placed (.frame f) a k)
    (p' : t.heap.Placed (.frame g) b k') (meters : k.meter.SameUpToCollection k'.meter)
    (hfg : (M.linkedTo l ρ).frames f g) :
    (M.withFrame a b).stores l ρ { s with heap := k } { t with heap := k' } where
  heaps := by
    have le := (M.le_withFrame a b).linkedTo l ρ
    refine S.heaps.placed p p' le .inl (fun hxy => ?_) id
    obtain hxy | ⟨rfl, rfl⟩ := hxy
    · exact .inl hxy
    · exact .inr ⟨rfl, rfl, f, g, rfl, rfl, hfg.mono le⟩
  tidy := p.tidy
  tidy' := p'.tidy
  meters := meters

/-- Matching changes are made to matching containers. -/
theorem edited (S : M.stores l ρ s t) {e f : Heap.Edit} (hab : M.object a b) (he : (M.linkedTo l ρ).edit e f) :
    M.stores l ρ { s with heap := s.heap.edit a e } { t with heap := t.heap.edit b f } where
  heaps := S.heaps.edited hab he
  tidy := S.tidy.update a e.apply
  tidy' := S.tidy'.update b f.apply
  meters := S.meters

/-- The words that have been met do not matter. -/
theorem of_lexicons (S : M.stores l ρ s t) (lexicon lexicon' : Code.Lexicon) :
    M.stores l ρ { s with lexicon } { t with lexicon := lexicon' } :=
  ⟨S.heaps, S.tidy, S.tidy', S.meters⟩

end stores

end Matching

namespace Store

/-- Two stores that hold the same, beside each other. -/
def pairing (l : Library) (ρ : Renumbering) : Simulation Store Store Matching where
  le := Matching.Le
  refl := Matching.Le.refl
  trans := Matching.Le.trans
  states M s t := M.stores l ρ s t

/-- Objects are put on both heaps. -/
theorem pairing_place {l : Library} {ρ : Renumbering} {M : Matching} {c d : Cell} (h : (M.linkedTo l ρ).cell c d) :
    (pairing l ρ).Runs M (fun N => N.object) (onHeap (Heap.allocate c)) (onHeap (Heap.allocate d)) := by
  rintro ⟨heap, lexicon⟩ ⟨heap', lexicon'⟩ (S : M.stores l ρ _ _)
  simp only [onHeap]
  obtain ⟨e, ha, hb⟩ | ⟨a, b, k, k', ha, hb, p, p', meters⟩ := S.allocate_cases c d
  · rw [ha, hb]
    exact .raised e (.refl M) S
  · rw [ha, hb]
    exact .ok (M.le_withObject a b) (S.placed p p' meters h) (.inr ⟨rfl, rfl⟩)

/-- A statement is counted on both sides. -/
theorem pairing_tick {l : Library} {ρ : Renumbering} {M : Matching} :
    (pairing l ρ).Runs M (fun _ _ _ => True) (onHeap Run.tick) (onHeap Run.tick) := by
  rintro ⟨⟨slots, free, meter, since⟩, lexicon⟩ ⟨⟨slots', free', meter', since'⟩, lexicon'⟩ S
  obtain ⟨same, meters⟩ := S.meters.tick
  have states : (pairing l ρ).states M ⟨⟨slots, free, meter.tick.2, since⟩, lexicon⟩
      ⟨⟨slots', free', meter'.tick.2, since'⟩, lexicon'⟩ :=
    ⟨⟨S.heaps.object, S.heaps.frame, S.heaps.captured, S.heaps.object_unique, S.heaps.frame_unique⟩,
      ⟨S.tidy.mem_free_iff, S.tidy.nodup⟩, ⟨S.tidy'.mem_free_iff, S.tidy'.nodup⟩, meters⟩
  simp only [onHeap, Run.tick]
  generalize meter.tick = r at same states ⊢
  generalize meter'.tick = r' at same states ⊢
  obtain ⟨use, meter₁⟩ := r
  obtain ⟨use', meter₁'⟩ := r'
  obtain rfl : use = use' := same
  cases use with
  | none => exact .ok (.refl M) states trivial
  | some use => exact .raised _ (.refl M) states

section frames

variable {l : Library} {ρ : Renumbering} {M : Matching} {p q : Option Address}

/-- Variables of frames that stand for each other are assigned. -/
theorem pairing_assign (hp : p.Rel M.frame q) (x : String) {v w : Value} (hv : (M.linkedTo l ρ).value v w) :
    (pairing l ρ).Runs M (fun _ => Eq) (onHeap (Heap.assignVariable p x v))
      (onHeap (Heap.assignVariable q x w)) := by
  cases hp with
  | none => exact .pure rfl
  | @some a b hab =>
    rintro ⟨heap, lexicon⟩ ⟨heap', lexicon'⟩ (S : M.stores l ρ _ _)
    obtain ⟨f, g, hf, hg, hfg⟩ := S.heaps.frame hab
    have vars := hfg.vars.insert (k := x) ⟨trivial, hv⟩
    have heaps : Alike (M.linkedTo l ρ) (heap.update a (Cell.assign x v)) (heap'.update b (Cell.assign x w)) :=
      S.heaps.frame_changed hab hf hg rfl rfl ⟨vars, hfg.parent, hfg.captured⟩ id (.refl _) id id .inl
    simp only [onHeap, Heap.assignVariable_frame hf, Heap.assignVariable_frame hg]
    exact .ok (.refl M) ⟨heaps, S.tidy.update _ _, S.tidy'.update _ _, S.meters⟩ rfl

/-- A function is made in the calls of frames that stand for each other. -/
theorem pairing_capture (hp : p.Rel M.frame q) :
    (pairing l ρ).Runs M (fun N _ _ => p.Rel N.captured q) (onHeap (Heap.captureFrame p))
      (onHeap (Heap.captureFrame q)) := by
  cases hp with
  | none => exact .pure .none
  | @some a b hab =>
    rintro ⟨heap, lexicon⟩ ⟨heap', lexicon'⟩ (S : M.stores l ρ _ _)
    obtain ⟨f, g, hf, hg, hfg⟩ := S.heaps.frame hab
    have le := (M.le_withCaptured a b).linkedTo l ρ
    have hfg' := hfg.mono le
    have heaps : Alike ((M.withCaptured a b).linkedTo l ρ) (heap.update a Cell.capture)
        (heap'.update b Cell.capture) := by
      refine S.heaps.frame_changed hab hf hg rfl rfl ⟨hfg'.vars, hfg'.parent, rfl⟩ (fun _ => rfl) le id
        id fun hxy => ?_
      obtain hxy | ⟨rfl, rfl⟩ := hxy
      · exact .inl hxy
      · exact .inr ⟨rfl, rfl, rfl⟩
    simp only [onHeap, Heap.captureFrame_frame hf, Heap.captureFrame_frame hg]
    exact .ok (M.le_withCaptured a b)
      ⟨heaps, S.tidy.update _ _, S.tidy'.update _ _, S.meters⟩ (.some (.inr ⟨rfl, rfl⟩))

end frames

/-- All operations of linked libraries with the same functions do the same to both stores. -/
theorem pairing_rules {l l' : Library} {ρ : Renumbering} (hl : l.Linked) (same : l.Renumbered ρ l') :
    StoreRules (pairing l ρ) (fun M => M.linkedTo l ρ) (fun _ _ => True) l l' where
  view_le h := h.linkedTo l ρ
  alike S := Matching.stores.heaps S
  serves M :=
    { host := same.toSameHost
      native := fun h => ⟨_, Array.getElem?_eq_getElem h⟩
      function := by
        rintro id _ n ⟨rfl, f, hf, -⟩
        exact ⟨f, f.renumber ρ, hf, same.functions.function hf, rfl⟩
      builtin := hl.builtin
      method := hl.method }
  mutable_of _ _ := trivial
  place h := pairing_place h.1
  edit := by
    rintro M a b e f - hab he s t (S : M.stores l ρ s t)
    exact .ok (.refl M) (S.edited hab he) trivial
  learn := by
    rintro M x s t (S : M.stores l ρ s t)
    exact .ok (.refl M) (S.of_lexicons _ _) trivial

end Store

end Scriptlet
