import Scriptlet.Proofs.Heap.Reach
import Scriptlet.Proofs.Soundness.Store

/-!
# Frames, collection and freezing

The changes of a store that are not operations of the language: a variable is assigned, a function is made in a
call, a frame is released, the objects that nothing reaches are freed, and those that the globals reach are
frozen. All of them keep a store sound.
-/

namespace Scriptlet.Store

open Heap (Cell Frame Reaches)

variable {l : Library} {s : Store}

/-! ## Changes of frames -/

/-- A frame changes but keeps its parent, and stays captured if it is. -/
theorem grows_of_frame {a : Address} {f g : Frame} {change : Cell → Cell}
    (hf : s.heap.cell? a = some (.frame f)) (hg : change (.frame f) = .frame g)
    (parent : g.parent = f.parent) (captured : f.captured = true → g.captured = true) :
    Grows (fun b => b = a) s { s with heap := s.heap.update a change } where
  words _ := id
  kept {b d} hd := by
    rw [Heap.cell?_update, hd]
    split
    · rename_i hab
      subst hab
      rw [hf] at hd
      cases hd
      exact ⟨.frame g, congrArg some hg, .frame rfl parent captured⟩
    · exact ⟨d, rfl, .same d⟩
  meter := rfl

theorem Sound.frame_changed {a : Address} {f g : Frame} {change : Cell → Cell} (h : s.Sound l)
    (hf : s.heap.cell? a = some (.frame f)) (hg : change (.frame f) = .frame g)
    (parent : g.parent = f.parent) (captured : f.captured = true → g.captured = true)
    (vars : g.vars.Matches (s.view l).binding g.vars) : Sound l { s with heap := s.heap.update a change } := by
  have le := (grows_of_frame hf hg parent captured).view_le l
  refine h.of_cells (h.tidy.update a change) le fun {b d} hd => ?_
  rw [Heap.cell?_update] at hd
  split at hd
  · rename_i hab
    subst hab
    rw [hf] at hd
    cases hd
    have hfg : (s.view l).frames g g := ⟨vars, parent ▸ (h.frame hf).parent, rfl⟩
    exact .inr (.inr ⟨g, hg, hfg.mono le⟩)
  · exact .inl hd

/-! ## Objects that go away -/

/-- A store stays sound when objects go away that the remaining ones do not refer to. -/
theorem Sound.restrict {heap : Heap} (h : s.Sound l) (tidy : heap.Tidy)
    (sub : ∀ {a c}, heap.cell? a = some c → s.heap.cell? a = some c)
    (closed : ∀ {a c}, heap.cell? a = some c →
      (s.view l).Keeps (view l { s with heap }) (· ∈ c.children)) : Sound l { s with heap } where
  tidy := tidy
  object hc hk := (closed hc).cell (h.object (sub hc) hk) fun _ => id
  frame hf := (closed hf).frames (h.frame (sub hf)) fun _ => id

/-- Nothing refers to a frame in whose call no function was made. -/
theorem keeps_discard {a : Address} {f : Frame} (hf : s.heap.cell? a = some (.frame f))
    (hc : f.captured = false) (on : Address → Prop) :
    (s.view l).Keeps (view l { s with heap := s.heap.discard a }) on := by
  have kept {b : Address} (hb : a ≠ b) : (s.heap.discard a).cell? b = s.heap.cell? b := by
    rw [Heap.cell?_discard, if_neg hb]
  refine ⟨?_, ?_, id, id, id⟩
  · rintro b _ - ⟨rfl, c, hb, hk⟩
    refine ⟨rfl, c, (kept ?_).trans hb, hk⟩
    rintro rfl
    rw [hf] at hb
    cases hb
    exact hk rfl
  · rintro b _ - ⟨rfl, g, hb, hg⟩
    refine ⟨rfl, g, (kept ?_).trans hb, hg⟩
    rintro rfl
    rw [hf] at hb
    cases hb
    simp [hc] at hg

theorem cell?_of_discard {h : Heap} {a b : Address} {c : Cell} (hb : (h.discard a).cell? b = some c) :
    h.cell? b = some c := by
  rw [Heap.cell?_discard] at hb
  split at hb
  · cases hb
  · exact hb

theorem Sound.released {a : Address} {f : Frame} (h : s.Sound l)
    (hf : s.heap.cell? a = some (.frame f)) (hc : f.captured = false) : Sound l { s with heap := s.heap.discard a } :=
  h.restrict (h.tidy.discard a) cell?_of_discard fun _ => keeps_discard hf hc _

/-- A collection frees only what the remaining objects do not refer to. -/
theorem Sound.collected (h : s.Sound l) (roots : List Address) :
    Sound l { s with heap := (s.heap.collect roots).2 } := by
  refine h.restrict (h.tidy.collect roots) (fun hc => (Heap.cell?_collect_eq_some.1 hc).2)
    fun {a c} hc => ?_
  obtain ⟨reached, hc⟩ := Heap.cell?_collect_eq_some.1 hc
  have reaches {b : Address} (hb : b ∈ c.children) : Reaches s.heap roots b :=
    .child reached (Heap.mem_children_of_cell? hc hb)
  refine ⟨?_, ?_, id, id, id⟩
  · rintro b _ hb ⟨rfl, d, hd, hk⟩
    exact ⟨rfl, d, Heap.cell?_collect_eq_some.2 ⟨reaches hb, hd⟩, hk⟩
  · rintro b _ hb ⟨rfl, f, hf, captured⟩
    exact ⟨rfl, f, Heap.cell?_collect_eq_some.2 ⟨reaches hb, hf⟩, captured⟩

/-! ## Freezing -/

theorem view_le_freezeFrom (l : Library) (s : Store) (roots : List Address) :
    (s.view l).Le (view l { s with heap := s.heap.freezeFrom roots }) := by
  have frame {a : Address} {f : Frame} (hf : s.heap.cell? a = some (.frame f)) :
      (s.heap.freezeFrom roots).cell? a = some (.frame f) := by
    obtain ha | ha := Heap.cell?_freezeFrom s.heap roots a <;> rw [ha, hf]
    rfl
  refine ⟨?_, ?_, ?_, id, id, id⟩
  · rintro a b ⟨rfl, c, hc, hk⟩
    obtain ha | ha := Heap.cell?_freezeFrom s.heap roots a
    · exact ⟨rfl, c, ha.trans hc, hk⟩
    · exact ⟨rfl, c.freeze, by rw [ha, hc]; rfl, c.kind_freeze ▸ hk⟩
  · rintro a b ⟨rfl, f, hf⟩
    exact ⟨rfl, f, frame hf⟩
  · rintro a b ⟨rfl, f, hf, hc⟩
    exact ⟨rfl, f, frame hf, hc⟩

theorem Sound.frozen (h : s.Sound l) (roots : List Address) : Sound l { s with heap := s.heap.freezeFrom roots } := by
  have le := view_le_freezeFrom l s roots
  refine h.of_cells (h.tidy.freezeFrom roots) le fun {a d} hd => ?_
  obtain ha | ha := Heap.cell?_freezeFrom s.heap roots a
  · exact .inl (ha ▸ hd)
  · cases hc : s.heap.cell? a with
    | none =>
      rw [ha, hc] at hd
      cases hd
    | some c =>
      rw [ha, hc] at hd
      cases hd
      by_cases hk : c.kind = .frame
      · cases c <;> simp [Cell.kind] at hk
        exact .inl rfl
      · exact .inr (.inl ((h.object hc hk).freeze.mono le))

end Scriptlet.Store
