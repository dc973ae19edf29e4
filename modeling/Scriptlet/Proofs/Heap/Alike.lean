import Scriptlet.Proofs.Heap.ReachMatch

/-!
# Matching heaps that change

Two heaps that match still match after the same thing has been done to both: an object was made, a container or
a frame was changed, a frame was released. They also still match, as far as some roots reach, when objects go
away that the roots do not reach, be it on both sides or on one of them only.
-/

namespace Scriptlet

open Heap (Cell Edit Frame Placed Reaches)

namespace Matching

variable {M : Matching}

/-- What stands for each other in a matching, without a frame of the first side. -/
def withoutFrame (M : Matching) (a : Address) : Matching :=
  { M with frame := fun x y => M.frame x y ∧ x ≠ a }

/-- What stands for each other in a matching and is among `on`. -/
def restrict (M : Matching) (on : Address → Prop) : Matching :=
  { M with
    object := fun x y => M.object x y ∧ on x
    frame := fun x y => M.frame x y ∧ on x
    captured := fun x y => M.captured x y ∧ on x }

theorem keeps_withoutFrame (M : Matching) (a : Address) : M.Keeps (M.withoutFrame a) fun _ => True :=
  ⟨fun _ h => h, fun _ h => h, id, id, id⟩

theorem keeps_restrict (M : Matching) (on : Address → Prop) : M.Keeps (M.restrict on) on :=
  ⟨fun ha h => ⟨h, ha⟩, fun ha h => ⟨h, ha⟩, id, id, id⟩

end Matching

namespace Alike

variable {M N : Matching} {h h' k k' : Heap} {a b : Address}

/-- Where an object stands there is no frame. -/
theorem object_ne_frame (A : Alike M h h') {x y : Address} (hxy : M.object x y)
    (hab : M.frame a b) : x ≠ a ∧ y ≠ b := by
  obtain ⟨c, d, hc, hd, hcd⟩ := A.object hxy
  obtain ⟨f, g, hf, hg, -⟩ := A.frame hab
  constructor
  · rintro rfl
    rw [hf] at hc
    cases hc
    exact hcd.kind_ne_frame.1 rfl
  · rintro rfl
    rw [hg] at hd
    cases hd
    exact hcd.kind_ne_frame.2 rfl

/-- What a referent stands for is unique. -/
theorem referent_unique (A : Alike M h h') {b' : Address} (hab : M.object a b ∨ M.frame a b)
    (hab' : M.referent a b') : b = b' := by
  obtain hab | hab := hab
  · obtain hab' | hab' := hab'
    · exact (A.object_unique hab hab').1 rfl
    · exact absurd rfl (A.object_ne_frame hab (A.captured hab').1).1
  · obtain hab' | hab' := hab'
    · exact absurd rfl (A.object_ne_frame hab' hab).1
    · exact (A.frame_unique hab (A.captured hab').1).1 rfl

/-- What stands for each other does not stand in empty slots. -/
theorem ne_of_fresh (A : Alike M h h') {x y : Address} (hxy : M.object x y ∨ M.frame x y)
    (ha : h.cell? a = none) (hb : h'.cell? b = none) : x ≠ a ∧ y ≠ b := by
  have live : ∃ c d, h.cell? x = some c ∧ h'.cell? y = some d := by
    obtain hxy | hxy := hxy
    · obtain ⟨c, d, hc, hd, -⟩ := A.object hxy
      exact ⟨c, d, hc, hd⟩
    · obtain ⟨f, g, hf, hg, -⟩ := A.frame hxy
      exact ⟨_, _, hf, hg⟩
  obtain ⟨c, d, hc, hd⟩ := live
  constructor
  · rintro rfl
    exact Option.some_ne_none c (hc.symm.trans ha)
  · rintro rfl
    exact Option.some_ne_none d (hd.symm.trans hb)

/-! ## New objects -/

/-- Matching objects are put on both heaps. -/
theorem placed (A : Alike M h h') {c d : Cell} (p : Placed h c a k) (p' : Placed h' d b k') (le : M.Le N)
    (object : ∀ {x y}, N.object x y → M.object x y ∨ x = a ∧ y = b ∧ N.cell c d)
    (frame : ∀ {x y}, N.frame x y → M.frame x y ∨
      x = a ∧ y = b ∧ ∃ f g, c = .frame f ∧ d = .frame g ∧ N.frames f g)
    (captured : ∀ {x y}, N.captured x y → M.captured x y) : Alike N k k' where
  object {x y} hxy := by
    obtain hxy | ⟨rfl, rfl, hcd⟩ := object hxy
    · obtain ⟨c', d', hc, hd, hcd⟩ := A.object hxy
      exact ⟨c', d', p.cell?_of_some hc, p'.cell?_of_some hd, hcd.mono le⟩
    · exact ⟨c, d, p.cell?_self, p'.cell?_self, hcd⟩
  frame {x y} hxy := by
    obtain hxy | ⟨rfl, rfl, f, g, rfl, rfl, hfg⟩ := frame hxy
    · obtain ⟨f, g, hf, hg, hfg⟩ := A.frame hxy
      exact ⟨f, g, p.cell?_of_some hf, p'.cell?_of_some hg, hfg.mono le⟩
    · exact ⟨f, g, p.cell?_self, p'.cell?_self, hfg⟩
  captured {x y} hxy := by
    have old := A.captured (captured hxy)
    refine ⟨le.frame old.1, fun f hf => ?_⟩
    obtain ⟨f₀, -, hf₀, -⟩ := A.frame old.1
    rw [p.cell?_of_some hf₀] at hf
    cases hf
    exact old.2 f hf₀
  object_unique {x y x' y'} hxy hxy' := by
    have apart {u v : Address} (huv : M.object u v) := A.ne_of_fresh (.inl huv) p.fresh p'.fresh
    obtain hxy | ⟨rfl, rfl, -⟩ := object hxy <;> obtain hxy' | ⟨rfl, rfl, -⟩ := object hxy'
    · exact A.object_unique hxy hxy'
    · simp only [apart hxy]
    · simp only [(apart hxy').1.symm, (apart hxy').2.symm]
    · simp only
  frame_unique {x y x' y'} hxy hxy' := by
    have apart {u v : Address} (huv : M.frame u v) := A.ne_of_fresh (.inr huv) p.fresh p'.fresh
    obtain hxy | ⟨rfl, rfl, -⟩ := frame hxy <;> obtain hxy' | ⟨rfl, rfl, -⟩ := frame hxy'
    · exact A.frame_unique hxy hxy'
    · simp only [apart hxy]
    · simp only [(apart hxy').1.symm, (apart hxy').2.symm]
    · simp only

/-! ## Changes -/

/-- Matching changes are made to matching containers. -/
theorem edited (A : Alike M h h') {e f : Edit} (hab : M.object a b) (he : M.edit e f) :
    Alike M (h.edit a e) (h'.edit b f) := by
  have frame_kept {heap : Heap} {e : Edit} {u x : Address} {g : Frame}
      (hg : heap.cell? x = some (.frame g)) : (heap.edit u e).cell? x = some (.frame g) := by
    rw [Heap.edit, Heap.cell?_update, hg]
    split
    · cases e <;> rfl
    · rfl
  refine ⟨fun {x y} hxy => ?_, fun {x y} hxy => ?_, fun {x y} hxy => ⟨(A.captured hxy).1, ?_⟩,
    A.object_unique, A.frame_unique⟩
  · obtain ⟨c, d, hc, hd, hcd⟩ := A.object hxy
    have same := A.object_unique hab hxy
    simp only [Heap.edit, Heap.cell?_update, hc, hd, same, Option.map_some]
    split
    · exact ⟨_, _, rfl, rfl, he.apply hcd⟩
    · exact ⟨c, d, rfl, rfl, hcd⟩
  · obtain ⟨f, g, hf, hg, hfg⟩ := A.frame hxy
    exact ⟨f, g, frame_kept hf, frame_kept hg, hfg⟩
  · intro f hf
    obtain ⟨f₀, -, hf₀, -⟩ := A.frame (A.captured hxy).1
    rw [frame_kept hf₀] at hf
    cases hf
    exact (A.captured hxy).2 f hf₀

/-- Matching changes are made to matching frames; a function may have been made in their calls. -/
theorem frame_changed (A : Alike M h h') {f g f' g' : Frame} {φ ψ : Cell → Cell} (hab : M.frame a b)
    (hf : h.cell? a = some (.frame f)) (hg : h'.cell? b = some (.frame g))
    (hφ : φ (.frame f) = .frame f') (hψ : ψ (.frame g) = .frame g') (hfg : N.frames f' g')
    (kept : f.captured = true → f'.captured = true) (le : M.Le N)
    (object : ∀ {x y}, N.object x y → M.object x y) (frame : ∀ {x y}, N.frame x y → M.frame x y)
    (captured : ∀ {x y}, N.captured x y → M.captured x y ∨ x = a ∧ y = b ∧ f'.captured = true) :
    Alike N (h.update a φ) (h'.update b ψ) := by
  have here : (h.update a φ).cell? a = some (.frame f') := by
    rw [Heap.cell?_update, if_pos rfl, hf, Option.map_some, hφ]
  have here' : (h'.update b ψ).cell? b = some (.frame g') := by
    rw [Heap.cell?_update, if_pos rfl, hg, Option.map_some, hψ]
  refine ⟨fun {x y} hxy => ?_, fun {x y} hxy => ?_, fun {x y} hxy => ?_,
    fun hxy hxy' => A.object_unique (object hxy) (object hxy'),
    fun hxy hxy' => A.frame_unique (frame hxy) (frame hxy')⟩
  · obtain ⟨c, d, hc, hd, hcd⟩ := A.object (object hxy)
    obtain ⟨hx, hy⟩ := A.object_ne_frame (object hxy) hab
    refine ⟨c, d, ?_, ?_, hcd.mono le⟩
    · rw [Heap.cell?_update, if_neg hx.symm, hc]
    · rw [Heap.cell?_update, if_neg hy.symm, hd]
  · by_cases hx : a = x
    · obtain rfl := (A.frame_unique hab (frame hxy)).1 hx
      obtain rfl := hx
      exact ⟨f', g', here, here', hfg⟩
    · have hy : b ≠ y := fun hy => hx ((A.frame_unique hab (frame hxy)).2 hy)
      obtain ⟨f₁, g₁, hf₁, hg₁, hfg₁⟩ := A.frame (frame hxy)
      refine ⟨f₁, g₁, ?_, ?_, hfg₁.mono le⟩
      · rw [Heap.cell?_update, if_neg hx, hf₁]
      · rw [Heap.cell?_update, if_neg hy, hg₁]
  · obtain hxy | ⟨rfl, rfl, hc⟩ := captured hxy
    · refine ⟨le.frame (A.captured hxy).1, fun f₁ hf₁ => ?_⟩
      by_cases hx : a = x
      · obtain rfl := hx
        rw [here] at hf₁
        cases hf₁
        exact kept ((A.captured hxy).2 f hf)
      · rw [Heap.cell?_update, if_neg hx] at hf₁
        exact (A.captured hxy).2 f₁ hf₁
    · refine ⟨le.frame hab, fun f₁ hf₁ => ?_⟩
      rw [here] at hf₁
      cases hf₁
      exact hc

/-! ## Objects that go away -/

/-- Matching frames in whose calls no function was made are released. -/
theorem released (A : Alike M h h') {f : Frame} (hab : M.frame a b)
    (hf : h.cell? a = some (.frame f)) (hc : f.captured = false) :
    Alike (M.withoutFrame a) (h.discard a) (h'.discard b) := by
  have keeps := M.keeps_withoutFrame a
  refine ⟨fun {x y} hxy => ?_, fun {x y} hxy => ?_, fun {x y} hxy => ?_, A.object_unique,
    fun hxy hxy' => A.frame_unique hxy.1 hxy'.1⟩
  · obtain ⟨c, d, hc, hd, hcd⟩ := A.object hxy
    obtain ⟨hx, hy⟩ := A.object_ne_frame hxy hab
    refine ⟨c, d, ?_, ?_, keeps.cell hcd fun _ _ => trivial⟩
    · rw [Heap.cell?_discard, if_neg hx.symm, hc]
    · rw [Heap.cell?_discard, if_neg hy.symm, hd]
  · obtain ⟨f₁, g₁, hf₁, hg₁, hfg₁⟩ := A.frame hxy.1
    have hy : b ≠ y := fun hy => hxy.2 ((A.frame_unique hab hxy.1).2 hy).symm
    refine ⟨f₁, g₁, ?_, ?_, keeps.frames hfg₁ fun _ _ => trivial⟩
    · rw [Heap.cell?_discard, if_neg hxy.2.symm, hf₁]
    · rw [Heap.cell?_discard, if_neg hy, hg₁]
  · have hx : x ≠ a := by
      rintro rfl
      exact absurd ((A.captured hxy).2 f hf) (by simp [hc])
    refine ⟨⟨(A.captured hxy).1, hx⟩, fun f₁ hf₁ => ?_⟩
    rw [Heap.cell?_discard, if_neg hx.symm] at hf₁
    exact (A.captured hxy).2 f₁ hf₁

/-- Heaps still match when more words, host functions and definitions are known and the same objects and frames
stand for each other. -/
theorem relink {N : Matching} (A : Alike M h h') (le : M.Le N) (object : ∀ {a b}, N.object a b → M.object a b)
    (frame : ∀ {a b}, N.frame a b → M.frame a b) (captured : ∀ {a b}, N.captured a b → M.captured a b) :
    Alike N h h' where
  object hab := by
    obtain ⟨c, d, hc, hd, hcd⟩ := A.object (object hab)
    exact ⟨c, d, hc, hd, hcd.mono le⟩
  frame hab := by
    obtain ⟨f, g, hf, hg, hfg⟩ := A.frame (frame hab)
    exact ⟨f, g, hf, hg, hfg.mono le⟩
  captured hab := ⟨le.frame (A.captured (captured hab)).1, (A.captured (captured hab)).2⟩
  object_unique hab hab' := A.object_unique (object hab) (object hab')
  frame_unique hab hab' := A.frame_unique (frame hab) (frame hab')

/-- As far as matching roots reach, heaps still match if on both sides all that the roots reach has undergone the
same change `φ`, whatever became of the rest. -/
theorem reached (A : Alike M h h') {roots roots' : List Address} {φ : Cell → Cell}
    (hr : List.Forall₂ M.referent roots roots') (hk : ∀ {x}, Reaches h roots x → k.cell? x = (h.cell? x).map φ)
    (hk' : ∀ {y}, Reaches h' roots' y → k'.cell? y = (h'.cell? y).map φ)
    (cell : ∀ {N : Matching} {c d}, N.cell c d → N.cell (φ c) (φ d)) (frame : ∀ f, φ (.frame f) = .frame f) :
    Alike (M.restrict (Reaches h roots)) k k' := by
  have keeps := M.keeps_restrict (Reaches h roots)
  have right {x y : Address} (hxy : M.object x y ∨ M.frame x y) (hx : Reaches h roots x) :
      Reaches h' roots' y := by
    obtain ⟨y', hy', hxy'⟩ := A.reaches hr hx
    rwa [A.referent_unique hxy hxy']
  refine ⟨fun {x y} ⟨hxy, hx⟩ => ?_, fun {x y} ⟨hxy, hx⟩ => ?_, fun {x y} ⟨hxy, hx⟩ => ?_,
    fun hxy hxy' => A.object_unique hxy.1 hxy'.1, fun hxy hxy' => A.frame_unique hxy.1 hxy'.1⟩
  · obtain ⟨c, d, hc, hd, hcd⟩ := A.object hxy
    refine ⟨φ c, φ d, ?_, ?_, cell (keeps.cell hcd fun u hu => ?_)⟩
    · rw [hk hx, hc, Option.map_some]
    · rw [hk' (right (.inl hxy) hx), hd, Option.map_some]
    · exact .child hx (Heap.mem_children_of_cell? hc hu)
  · obtain ⟨f, g, hf, hg, hfg⟩ := A.frame hxy
    refine ⟨f, g, ?_, ?_, keeps.frames hfg fun u hu => ?_⟩
    · rw [hk hx, hf, Option.map_some, frame]
    · rw [hk' (right (.inr hxy) hx), hg, Option.map_some, frame]
    · exact .child hx (Heap.mem_children_of_cell? hf hu)
  · refine ⟨⟨(A.captured hxy).1, hx⟩, fun f hf => ?_⟩
    obtain ⟨f₀, -, hf₀, -⟩ := A.frame (A.captured hxy).1
    rw [hk hx, hf₀, Option.map_some, frame] at hf
    cases hf
    exact (A.captured hxy).2 f hf₀

end Alike

end Scriptlet
