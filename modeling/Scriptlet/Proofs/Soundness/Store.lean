import Scriptlet.Proofs.HostOperations

/-!
# Sound stores

A store is sound if it matches itself: its values refer to live objects, to host functions of the library and
to known words, its function values and frames refer to live frames that outlive their calls, and every
function value has as many defaults as its definition wants. Every operation on the store keeps this, and this
module says what such an operation can do to the objects that are there: it can change containers that are not
frozen, and nothing else.
-/

namespace Scriptlet

open Heap (Cell Frame)

/-! ## Matchings that only match things with themselves -/

theorem OrderedMap.Matches.eq {κ α : Type} [Ord κ] [Std.TransOrd κ] [Std.LawfulEqOrd κ]
    {R : κ → α → α → Prop} {m n : OrderedMap κ α} (h : m.Matches R n) (hR : ∀ {k a b}, R k a b → a = b) : m = n := by
  refine OrderedMap.ext ?_
  have he : List.Forall₂ Eq m.entries n.entries :=
    List.Forall₂.imp (fun e f hef => Prod.ext hef.1 (hR hef.2)) h
  rwa [List.forall₂_eq_eq_eq] at he

namespace Matching

/-- Everything stands only for itself. -/
structure Diagonal (M : Matching) : Prop where
  object : ∀ {a b}, M.object a b → a = b
  captured : ∀ {a b}, M.captured a b → a = b
  function : ∀ {id id' n}, M.function id id' n → id = id'

namespace Diagonal

variable {M : Matching}

theorem value_eq (h : M.Diagonal) {v w : Value} (hv : M.value v w) : v = w := by
  cases hv with
  | ref hab => rw [h.object hab]
  | _ => rfl

theorem values_eq (h : M.Diagonal) {vs ws : List Value} (hv : M.values vs ws) : vs = ws := by
  have he : List.Forall₂ Eq vs ws := List.Forall₂.imp (fun _ _ => h.value_eq) hv
  rwa [List.forall₂_eq_eq_eq] at he

theorem bindings_eq (h : M.Diagonal) {es fs : List (String × Value)} (he : M.bindings es fs) : es = fs := by
  have heq : List.Forall₂ Eq es fs :=
    List.Forall₂.imp (fun _ _ hef => Prod.ext hef.1 (h.value_eq hef.2.2)) he
  rwa [List.forall₂_eq_eq_eq] at heq

theorem cell_eq (h : M.Diagonal) {c d : Cell} (hc : M.cell c d) : c = d := by
  cases hc with
  | text s => rfl
  | list frozen hv => rw [Array.toList_inj.1 (h.values_eq hv)]
  | tuple hv => rw [Array.toList_inj.1 (h.values_eq hv)]
  | dict frozen he => rw [he.eq fun hef => Prod.ext (h.value_eq hef.1) (h.value_eq hef.2)]
  | struct he => rw [he.eq fun hef => h.value_eq hef.2]
  | closure known defaults frame =>
    rw [h.function known, h.values_eq defaults]
    cases frame with
    | none => rfl
    | some hab => rw [h.captured hab]
  | method receiver _ => rw [h.value_eq receiver]

theorem edit_eq (h : M.Diagonal) {e f : Heap.Edit} (he : M.edit e f) : e = f := by
  cases he with
  | setItem i hv => rw [h.value_eq hv]
  | extend hv => rw [h.values_eq hv]
  | clear => rfl
  | setEntry k hi hv => rw [h.value_eq hi, h.value_eq hv]

end Diagonal

end Matching

/-! ## Objects over time -/

/-- What can become of an object while code runs: containers that are not frozen can change, and so can the
variables of the running call, if it is `own`. A frame keeps its parent, and once a function was made in its
call this stays so. -/
inductive Heap.Cell.Evolves (own : Prop) : Cell → Cell → Prop where
  | same (c : Cell) : Evolves own c c
  | list (vs ws : Array Value) : Evolves own (.list vs false) (.list ws false)
  | dict (es fs : OrderedMap Key (Value × Value)) : Evolves own (.dict es false) (.dict fs false)
  | frame (h : own) {f g : Frame} (parent : g.parent = f.parent)
    (captured : f.captured = true → g.captured = true) : Evolves own (.frame f) (.frame g)

namespace Heap.Cell.Evolves

variable {own own' : Prop} {c d e : Cell}

theorem kind_eq (h : Evolves own c d) : d.kind = c.kind := by
  cases h <;> rfl

theorem imp (h : Evolves own c d) (ho : own → own') : Evolves own' c d := by
  cases h with
  | same => exact .same _
  | list vs ws => exact .list vs ws
  | dict es fs => exact .dict es fs
  | frame hown parent captured => exact .frame (ho hown) parent captured

theorem trans (h : Evolves own c d) (h' : Evolves own d e) : Evolves own c e := by
  cases h with
  | same => exact h'
  | list vs ws =>
    cases h' with
    | same => exact .list vs ws
    | list _ us => exact .list vs us
  | dict es fs =>
    cases h' with
    | same => exact .dict es fs
    | dict _ gs => exact .dict es gs
  | frame hown parent captured =>
    cases h' with
    | same => exact .frame hown parent captured
    | frame _ parent' captured' =>
      exact .frame hown (parent'.trans parent) fun hc => captured' (captured hc)

/-- Only containers that are not frozen and the frame of the running call change. -/
theorem eq_or (h : Evolves own c d) : d = c ∨ (c.Mutable ∧ d.Mutable) ∨ own := by
  cases h with
  | same => exact .inl rfl
  | list vs ws => exact .inr (.inl ⟨.list vs, .list ws⟩)
  | dict es fs => exact .inr (.inl ⟨.dict es, .dict fs⟩)
  | frame hown _ _ => exact .inr (.inr hown)

/-- A frame that is not the running call's does not change. -/
theorem frame_eq {f : Frame} (h : Evolves own (.frame f) d) (ho : ¬ own) : d = .frame f := by
  cases h with
  | same => rfl
  | frame hown _ _ => exact absurd hown ho

/-- A frame stays a frame, with its parent. -/
theorem frame_cases {f : Frame} (h : Evolves own (.frame f) d) :
    ∃ g, d = .frame g ∧ g.parent = f.parent ∧ (f.captured = true → g.captured = true) := by
  cases h with
  | same => exact ⟨f, rfl, rfl, id⟩
  | frame _ parent captured => exact ⟨_, rfl, parent, captured⟩

end Heap.Cell.Evolves

/-! ## Sound stores -/

/-- Every host function that has a name is in the table. -/
structure Library.Linked (l : Library) : Prop where
  builtin : ∀ {x id}, l.builtins.find? x = some id → id.index < l.natives.size
  method : ∀ {type x id}, l.method? type x = some id → id.index < l.natives.size

namespace Store

variable {l : Library}

/-- What there is in a store, as a matching of the store with itself. -/
def view (l : Library) (s : Store) : Matching where
  object a b := a = b ∧ ∃ c, s.heap.cell? a = some c ∧ c.kind ≠ .frame
  frame a b := a = b ∧ ∃ f, s.heap.cell? a = some (.frame f)
  captured a b := a = b ∧ ∃ f, s.heap.cell? a = some (.frame f) ∧ f.captured = true
  word x := x ∈ s.lexicon.words
  native id := id.index < l.natives.size
  function id id' n := id = id' ∧ ∃ f, l.functions[id.index]? = some f ∧ f.signature.defaultsCount = n

theorem view_diagonal (l : Library) (s : Store) : (s.view l).Diagonal :=
  ⟨And.left, And.left, And.left⟩

/-- All that a store refers to is there. -/
structure Sound (l : Library) (s : Store) : Prop where
  tidy : s.heap.Tidy
  object : ∀ {a c}, s.heap.cell? a = some c → c.kind ≠ .frame → (s.view l).cell c c
  frame : ∀ {a f}, s.heap.cell? a = some (.frame f) → (s.view l).frames f f

theorem Sound.alike {s : Store} (h : s.Sound l) : Alike (s.view l) s.heap s.heap where
  object := by
    rintro a b ⟨rfl, c, hc, hk⟩
    exact ⟨c, c, hc, hc, h.object hc hk⟩
  frame := by
    rintro a b ⟨rfl, f, hf⟩
    exact ⟨f, f, hf, hf, h.frame hf⟩
  captured := by
    rintro a b ⟨rfl, f, hf, hc⟩
    refine ⟨⟨rfl, f, hf⟩, fun g hg => ?_⟩
    rw [hf] at hg
    cases hg
    exact hc
  object_unique := by
    rintro a b a' b' ⟨rfl, -⟩ ⟨rfl, -⟩
    rfl
  frame_unique := by
    rintro a b a' b' ⟨rfl, -⟩ ⟨rfl, -⟩
    rfl

/-- What code can do to a store while it runs: no object and no word goes away, only containers that are not
frozen change, of the frames only those of the `own` ones, and the terms of the meter stay. -/
structure Grows (own : Address → Prop) (s s' : Store) : Prop where
  words : ∀ x ∈ s.lexicon.words, x ∈ s'.lexicon.words
  kept : ∀ {a c}, s.heap.cell? a = some c → ∃ c', s'.heap.cell? a = some c' ∧ c.Evolves (own a) c'
  meter : s'.heap.meter.reset = s.heap.meter.reset

namespace Grows

variable {own own' : Address → Prop} {s s' s'' : Store}

theorem refl (own : Address → Prop) (s : Store) : Grows own s s where
  words _ := id
  kept hc := ⟨_, hc, .same _⟩
  meter := rfl

theorem trans (h : Grows own s s') (h' : Grows own s' s'') : Grows own s s'' where
  words x hx := h'.words x (h.words x hx)
  kept hc := by
    obtain ⟨c', hc', e⟩ := h.kept hc
    obtain ⟨c'', hc'', e'⟩ := h'.kept hc'
    exact ⟨c'', hc'', e.trans e'⟩
  meter := h'.meter.trans h.meter

theorem imp (h : Grows own s s') (ho : ∀ {a c}, s.heap.cell? a = some c → own a → own' a) :
    Grows own' s s' where
  words := h.words
  kept hc := by
    obtain ⟨c', hc', e⟩ := h.kept hc
    exact ⟨c', hc', e.imp (ho hc)⟩
  meter := h.meter

/-- Frames stay. -/
theorem frame {a : Address} {f : Frame} (h : Grows own s s') (hf : s.heap.cell? a = some (.frame f)) :
    ∃ g, s'.heap.cell? a = some (.frame g) ∧ g.parent = f.parent ∧
      (f.captured = true → g.captured = true) := by
  obtain ⟨c', hc', e⟩ := h.kept hf
  obtain ⟨g, rfl, rest⟩ := e.frame_cases
  exact ⟨g, hc', rest⟩

theorem view_le (h : Grows own s s') (l : Library) : (s.view l).Le (s'.view l) where
  object := by
    rintro a b ⟨rfl, c, hc, hk⟩
    obtain ⟨c', hc', e⟩ := h.kept hc
    exact ⟨rfl, c', hc', e.kind_eq ▸ hk⟩
  frame := by
    rintro a b ⟨rfl, f, hf⟩
    obtain ⟨g, hg, -⟩ := h.frame hf
    exact ⟨rfl, g, hg⟩
  captured := by
    rintro a b ⟨rfl, f, hf, hc⟩
    obtain ⟨g, hg, -, captured⟩ := h.frame hf
    exact ⟨rfl, g, hg, captured hc⟩
  word hx := h.words _ hx
  native := id
  function := id

end Grows

/-- What an operation on the store can do: no frame changes, and what is new is neither a frame nor a function
value. -/
structure Quiet (s s' : Store) : Prop extends Grows (fun _ => False) s s' where
  new : ∀ {a c'}, s.heap.cell? a = none → s'.heap.cell? a = some c' →
    c'.kind ≠ .frame ∧ c'.kind ≠ .closure

namespace Quiet

variable {s s' s'' : Store}

theorem refl (s : Store) : Quiet s s where
  toGrows := .refl _ s
  new h h' := by simp [h] at h'

theorem trans (h : Quiet s s') (h' : Quiet s' s'') : Quiet s s'' where
  toGrows := h.toGrows.trans h'.toGrows
  new {a c''} hn hc'' := by
    cases hc' : s'.heap.cell? a with
    | none => exact h'.new hc' hc''
    | some c' =>
      obtain ⟨c₂, hc₂, e⟩ := h'.kept hc'
      rw [hc''] at hc₂
      cases hc₂
      rw [e.kind_eq]
      exact h.new hn hc'

end Quiet

/-- A store stays sound if nothing that is there goes away and every object that is new or has changed refers
only to what is there. -/
theorem Sound.of_cells {s s' : Store} (h : s.Sound l) (tidy : s'.heap.Tidy) (le : (s.view l).Le (s'.view l))
    (cells : ∀ {a c}, s'.heap.cell? a = some c → s.heap.cell? a = some c ∨
      (s'.view l).cell c c ∨ ∃ f, c = .frame f ∧ (s'.view l).frames f f) : s'.Sound l where
  tidy := tidy
  object {a c} hc hk := by
    obtain old | new | ⟨f, rfl, -⟩ := cells hc
    · exact (h.object old hk).mono le
    · exact new
    · exact absurd rfl hk
  frame {a f} hf := by
    obtain old | new | ⟨g, hg, new⟩ := cells hf
    · exact (h.frame old).mono le
    · cases new
    · cases hg
      exact new

/-- Comparing an operation with itself on a sound store. -/
def soundness (l : Library) : Simulation Store Store Store where
  le := Quiet
  refl := Quiet.refl
  trans := Quiet.trans
  states w s t := s = w ∧ t = w ∧ w.Sound l

section steps

variable {l : Library} {s : Store} {c : Cell} {a : Address} {heap : Heap}

theorem grows_of_placed (p : s.heap.Placed c a heap) (own : Address → Prop) : Grows own s { s with heap } where
  words _ := id
  kept hd := ⟨_, p.cell?_of_some hd, .same _⟩
  meter := p.meter

/-- A new object that is neither a frame nor a function value. -/
theorem quiet_of_placed (p : s.heap.Placed c a heap)
    (hf : c.kind ≠ .frame) (hc : c.kind ≠ .closure) : Quiet s { s with heap } where
  toGrows := grows_of_placed p _
  new {b d} hn hd := by
    have hb := p.cell? b
    split at hb
    · rw [hb] at hd
      cases hd
      exact ⟨hf, hc⟩
    · rw [hb, hn] at hd
      cases hd

/-- A new object that refers only to what is there. -/
theorem Sound.placed (h : s.Sound l) (p : s.heap.Placed c a heap)
    (hc : (s.view l).cell c c ∨ ∃ f, c = .frame f ∧ (s.view l).frames f f) : Sound l { s with heap } := by
  have le := (grows_of_placed p fun _ => False).view_le l
  refine h.of_cells p.tidy le fun {b d} hd => ?_
  have hb := p.cell? b
  split at hb
  · rw [hb] at hd
    cases hd
    obtain hc | ⟨f, rfl, hf⟩ := hc
    · exact .inr (.inl (hc.mono le))
    · exact .inr (.inr ⟨f, rfl, hf.mono le⟩)
  · exact .inl (hb ▸ hd)

theorem evolves_edit (h : c.Mutable) (e : Heap.Edit) : c.Evolves False (e.apply c) := by
  cases h <;> cases e <;> constructor

/-- A change of a container that is not frozen. -/
theorem quiet_of_edit (hm : s.heap.MutableAt a) (e : Heap.Edit) :
    Quiet s { s with heap := s.heap.edit a e } where
  words _ := id
  kept {b d} hd := by
    obtain ⟨c, hc, mutable⟩ := hm
    rw [Heap.edit, Heap.cell?_update, hd]
    split
    · rename_i hab
      subst hab
      rw [hc] at hd
      cases hd
      exact ⟨_, rfl, evolves_edit mutable e⟩
    · exact ⟨d, rfl, .same d⟩
  meter := rfl
  new {b d} hn hd := by
    simp [Heap.edit, Heap.cell?_update, hn] at hd

theorem Sound.edited {e : Heap.Edit} (h : s.Sound l) (hm : s.heap.MutableAt a)
    (he : (s.view l).edit e e) : Sound l { s with heap := s.heap.edit a e } := by
  have le := (quiet_of_edit hm e).view_le l
  refine h.of_cells (h.tidy.update a e.apply) le fun {b d} hd => ?_
  rw [Heap.edit, Heap.cell?_update] at hd
  split at hd
  · rename_i hab
    subst hab
    obtain ⟨c, hc, mutable⟩ := hm
    rw [hc] at hd
    cases hd
    have hk : c.kind ≠ .frame := by
      cases mutable <;> exact Heap.CellKind.noConfusion
    exact .inr (.inl ((he.apply (h.object hc hk)).mono le))
  · exact .inl hd

/-- A word is met. -/
theorem quiet_of_learn (x : String) : Quiet s { s with lexicon := s.lexicon.learn x } where
  words y hy := (s.lexicon.prefix_learn x).subset hy
  kept hc := ⟨_, hc, .same _⟩
  meter := rfl
  new hn hc := by simp [hn] at hc

theorem Sound.learned (h : s.Sound l) (x : String) : Sound l { s with lexicon := s.lexicon.learn x } :=
  h.of_cells h.tidy ((quiet_of_learn x).view_le l) .inl

end steps

/-- All operations of a linked library keep a store sound, and are quiet. -/
theorem soundness_rules (hl : l.Linked) :
    StoreRules (soundness l) (view l) (fun w a => w.heap.MutableAt a) l l where
  view_le h := h.view_le l
  alike := by
    rintro w s t ⟨rfl, rfl, h⟩
    exact h.alike
  serves w :=
    { host := ⟨rfl, rfl, rfl⟩
      native := fun h => ⟨_, Array.getElem?_eq_getElem h⟩
      function := by
        rintro id _ n ⟨rfl, f, hf, -⟩
        exact ⟨f, f, hf, hf, rfl⟩
      builtin := hl.builtin
      method := hl.method }
  mutable_of := by
    rintro w s t a ⟨rfl, rfl, h⟩
    exact id
  place := by
    rintro w c d hcd s t ⟨rfl, rfl, h⟩
    obtain rfl := (view_diagonal l t).cell_eq hcd.1
    show (soundness l).Ends t _ (onHeap (Heap.allocate c) t) (onHeap (Heap.allocate c) t)
    simp only [onHeap]
    obtain ⟨use, -, ha⟩ | ⟨meter, a, heap, -, ha, p, -⟩ := Heap.allocate_cases h.tidy c
    · rw [ha]
      exact .raised _ (Quiet.refl t) ⟨rfl, rfl, h⟩
    · rw [ha]
      have hk := hcd.1.kind_ne_frame.1
      exact .ok (quiet_of_placed p hk hcd.2) ⟨rfl, rfl, h.placed p (.inl hcd.1)⟩
        ⟨rfl, c, p.cell?_self, hk⟩
  edit := by
    rintro w a b e f hm hab he s t ⟨rfl, rfl, h⟩
    obtain rfl := (view_diagonal l t).edit_eq he
    obtain rfl := (view_diagonal l t).object hab
    exact .ok (quiet_of_edit hm e) ⟨rfl, rfl, h.edited hm he⟩ trivial
  learn := by
    rintro w x s t ⟨rfl, rfl, h⟩
    exact .ok (quiet_of_learn x) ⟨rfl, rfl, h.learned x⟩ (t.lexicon.mem_learn x)

end Store

end Scriptlet
