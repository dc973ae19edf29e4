import Mathlib.Order.Defs.Unbundled
import Scriptlet.Proofs.Data.Maps
import Scriptlet.Proofs.Dict.Keys
import Scriptlet.Proofs.Heap.Reach

/-!
# Keyed heaps

A dictionary stores each entry under a key that was taken from the index of the entry when it came in. The index stays
on the heap and could be looked at again at any time. In a keyed heap this gives the key that the entry is stored
under: what a key looks at never changes, and it is never freed while a dictionary holds it.
-/

namespace Scriptlet

namespace Heap

/-- Each entry of a dictionary is stored under the key that its index has. -/
def Cell.KeyedIn (h : Heap) : Cell → Prop
  | .dict entries _ => ∀ e ∈ entries.entries, e.2.1.key h = .ok e.1
  | _ => True

/-- A change of a dictionary binds the key that the index has. -/
def Edit.KeyedIn (h : Heap) : Edit → Prop
  | .setEntry key index _ => index.key h = .ok key
  | _ => True

/-- All dictionaries of a tidy heap store their entries under the keys that the indices have. -/
structure Keyed (h : Heap) : Prop where
  tidy : h.Tidy
  cells : ∀ a c, h.cell? a = some c → c.KeyedIn h

theorem keyed_empty (meter : Budget.Meter) : (empty meter).Keyed :=
  ⟨tidy_empty meter, fun a c hc => by simp [empty, cell?] at hc⟩

/-- Whether a key can look into an object. -/
def Cell.isKeyPart : Cell → Bool
  | .text _ | .tuple _ => true
  | _ => false

/-- All strings and tuples of `h` are in `h'` too. -/
def KeysKept (h h' : Heap) : Prop := ∀ a c, h.cell? a = some c → c.isKeyPart → h'.cell? a = some c

variable {h h' : Heap} {a : Address} {c : Cell}

theorem cell?_of_read (read : h.read a = .ok c) : h.cell? a = some c := by
  unfold Heap.read at read
  cases found : h.cell? a with
  | none =>
    rw [found] at read
    cases read
  | some d =>
    rw [found] at read
    cases read
    rfl

theorem KeysKept.key (kept : h.KeysKept h') {v : Value} {key : Key} (hashed : v.key h = .ok key) :
    v.key h' = .ok key := by
  have stays {a : Address} {c : Cell} (part : c.isKeyPart) (read : h.read a = .ok c) : h'.read a = .ok c :=
    read_of_cell? (kept a c (cell?_of_read read) part)
  exact Value.keyWithin_of_kept (S := fun _ => True) (fun _ _ _ read => stays rfl read)
    (fun _ _ _ read => ⟨stays rfl read, fun _ _ => trivial⟩) (fun _ _ => trivial) hashed

theorem Cell.KeyedIn.kept (keyed : c.KeyedIn h) (kept : h.KeysKept h') : c.KeyedIn h' := by
  cases c with
  | dict entries frozen => exact fun e he => kept.key (keyed e he)
  | _ => trivial

/-! ## What keeps a heap keyed -/

/-- If the heap was keyed, it has stayed so, and all strings and tuples are still there. -/
def StaysKeyed (h h' : Heap) : Prop := h.Keyed → h'.Keyed ∧ h.KeysKept h'

instance : IsPreorder Heap StaysKeyed where
  refl h keyed := ⟨keyed, fun _ _ hc _ => hc⟩
  trans h₁ h₂ h₃ first second keyed := by
    obtain ⟨keyed₂, kept⟩ := first keyed
    obtain ⟨keyed₃, kept'⟩ := second keyed₂
    exact ⟨keyed₃, fun a c hc part => kept' a c (kept a c hc part) part⟩

/-- A heap stays keyed by a step that keeps strings and tuples, if what it holds then was keyed before. -/
theorem Keyed.step (tidy : h'.Tidy) (kept : h.KeysKept h') (cells : ∀ a c, h'.cell? a = some c → c.KeyedIn h) :
    h'.Keyed ∧ h.KeysKept h' :=
  ⟨⟨tidy, fun a c hc => (cells a c hc).kept kept⟩, kept⟩

theorem Placed.staysKeyed (placed : Placed h c a h') (new : c.KeyedIn h) : h.StaysKeyed h' := by
  intro keyed
  refine Keyed.step placed.tidy (fun b d hd _ => placed.cell?_of_some hd) fun b d hd => ?_
  rw [placed.cell?] at hd
  split at hd
  · cases hd
    exact new
  · exact keyed.cells b d hd

theorem staysKeyed_update {f : Cell → Cell}
    (changed : ∀ c, h.cell? a = some c → (c.isKeyPart → f c = c) ∧ (c.KeyedIn h → (f c).KeyedIn h)) :
    h.StaysKeyed (h.update a f) := by
  intro keyed
  refine Keyed.step (keyed.tidy.update a f) (fun b d hd part => ?_) fun b d hd => ?_
  · rw [cell?_update]
    split
    · rename_i hab
      subst hab
      rw [hd, Option.map_some, (changed d hd).1 part]
    · exact hd
  · rw [cell?_update] at hd
    split at hd
    · rename_i hab
      subst hab
      obtain ⟨c, hc, rfl⟩ := Option.map_eq_some_iff.1 hd
      exact (changed c hc).2 (keyed.cells a c hc)
    · exact keyed.cells b d hd

theorem staysKeyed_edit {e : Edit} (keyed : e.KeyedIn h) (a : Address) : h.StaysKeyed (h.update a e.apply) := by
  refine staysKeyed_update fun c _ => ⟨fun part => ?_, fun before => ?_⟩
  · cases c <;> cases e <;> simp_all [Edit.apply, Cell.isKeyPart]
  · cases e with
    | setEntry key index v =>
      cases c with
      | dict entries frozen =>
        intro entry mem
        rw [OrderedMap.entries_insert] at mem
        rcases OrderedMap.eq_or_mem_of_mem_put mem with rfl | mem
        · exact keyed
        · exact before entry mem
      | _ => exact before
    | _ => cases c <;> exact before

theorem staysKeyed_assign (h : Heap) (a : Address) (x : String) (v : Value) :
    h.StaysKeyed (h.update a (Cell.assign x v)) :=
  staysKeyed_update fun c _ => by cases c <;> simp [Cell.assign, Cell.isKeyPart, Cell.KeyedIn]

theorem staysKeyed_capture (h : Heap) (a : Address) : h.StaysKeyed (h.update a Cell.capture) :=
  staysKeyed_update fun c _ => by cases c <;> simp [Cell.capture, Cell.isKeyPart, Cell.KeyedIn]

theorem staysKeyed_discard {f : Frame} (frame : h.cell? a = some (.frame f)) : h.StaysKeyed (h.discard a) := by
  intro keyed
  refine Keyed.step (keyed.tidy.discard a) (fun b d hd part => ?_) fun b d hd => ?_
  · rw [cell?_discard, if_neg, hd]
    rintro rfl
    rw [frame] at hd
    cases hd
    cases part
  · rw [cell?_discard] at hd
    split at hd
    · cases hd
    · exact keyed.cells b d hd

theorem staysKeyed_freezeFrom (h : Heap) (roots : List Address) : h.StaysKeyed (h.freezeFrom roots) := by
  intro keyed
  refine Keyed.step (keyed.tidy.freezeFrom roots) (fun b d hd part => ?_) fun b d hd => ?_
  · rcases cell?_freezeFrom h roots b with same | frozen
    · rw [same, hd]
    · rw [frozen, hd]
      cases d <;> simp_all [Cell.freeze, Cell.isKeyPart]
  · rcases cell?_freezeFrom h roots b with same | frozen
    · rw [same] at hd
      exact keyed.cells b d hd
    · rw [frozen] at hd
      obtain ⟨c, hc, rfl⟩ := Option.map_eq_some_iff.1 hd
      have before := keyed.cells b c hc
      cases c <;> exact before

/-- A collection keeps a heap keyed: what the keys of a dictionary look at can be reached if the dictionary can. -/
theorem Keyed.collect (keyed : h.Keyed) (roots : List Address) : (h.collect roots).2.Keyed := by
  refine ⟨keyed.tidy.collect roots, fun a c hc => ?_⟩
  obtain ⟨reached, hc⟩ := cell?_collect_eq_some.1 hc
  have stays {b : Address} {d : Cell} (hb : Reaches h roots b) (read : h.read b = .ok d) :
      (h.collect roots).2.read b = .ok d :=
    read_of_cell? ((cell?_collect_of_reaches hb).trans (cell?_of_read read))
  have inner {b b' : Address} {d : Cell} (hb : Reaches h roots b) (hd : h.cell? b = some d)
      (hb' : Value.ref b' ∈ d.values) : Reaches h roots b' := by
    refine .child hb (mem_children_of_cell? hd ?_)
    exact List.mem_append_right _ (List.mem_filterMap.2 ⟨_, hb', rfl⟩)
  cases c with
  | dict entries frozen =>
    intro e he
    have hashed : e.2.1.key h = .ok e.1 := keyed.cells a _ hc e he
    refine Value.keyWithin_of_kept (S := Reaches h roots) (fun b s hb read => stays hb read)
      (fun b items hb read => ⟨stays hb read, fun b' hb' => inner hb (cell?_of_read read) hb'⟩) (fun b hb => ?_) hashed
    refine inner reached hc (List.mem_flatMap.2 ⟨e.2, List.mem_map_of_mem he, ?_⟩)
    rw [hb]
    exact List.mem_cons_self
  | _ => trivial

end Heap

end Scriptlet
