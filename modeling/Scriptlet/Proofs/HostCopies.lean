import Scriptlet.Proofs.Content.Equality
import Scriptlet.Proofs.Content.Shown
import Scriptlet.Proofs.Object.Growing
import Scriptlet.Proofs.PassedStores

/-!
# Copies through the host

A value of data that is converted to a host object and built again comes back as a copy: an equal value that shares
nothing with the first one. What is done in place to the one later leaves the other as it is.
-/

namespace Scriptlet

open Budget (Meter maxDataDepth)
open Heap (Cell Placed)

variable {l : Library} {n : Nat} {v : Value} {o : Object}

/-! ## Objects of values -/

namespace Value

variable {l : Library} {h : Heap} {n : Nat} {path : List Address} {v w : Value} {o : Object}

theorem FitsIn.length_le (fits : FitsIn h n v) (leads : Leads h v path w) : path.length ≤ n := by
  cases leads with
  | self => exact Nat.zero_le n
  | inside outer _ _ => exact fits _ _ outer

namespace ShownWithin

/-- All objects in a value that is shown in full are there. -/
theorem live (shown : ShownWithin l h n v o) {a : Address} (leads : Leads h v path (.ref a)) :
    ∃ c, h.cell? a = some c := by
  obtain ⟨m, p, -, inner⟩ := shown.leads leads
  obtain ⟨c, found, -⟩ := inner.isData
  exact ⟨c, found⟩

theorem proper (shown : ShownWithin l h n v o) : o.Proper (n + 1) := by
  intro k p lies
  obtain ⟨m, path, w, inner, leads, rfl⟩ := shown.lies lies
  exact ⟨Nat.lt_succ_of_le (shown.fitsIn.length_le leads), inner.1 0 p .self⟩

/-- The indices of a dictionary that is shown in full are shown as the objects of its keys. -/
theorem keys {ps : List (Object × Object)} (keyed : h.Keyed) (shown : ShownWithin l h n v (.dict ps)) :
    ∃ keys : List Key, keys.Nodup ∧ ps.map Prod.fst = keys.map Key.object := by
  cases shown.depictedBy with
  | ref found _ content =>
    cases content with
    | @dict entries _ _ parts =>
      have index (e : Key × Value × Value) (mem : e ∈ entries.entries) (p : Object)
          (part : ∃ m, n = m + 1 ∧ ShownWithin l h m e.2.1 p) : p = e.1.object := by
        obtain ⟨m, -, inner⟩ := part
        exact inner.index keyed found mem
      have same : List.Forall₂ Eq (entries.keys.map Key.object) (ps.map Prod.fst) := by
        rw [List.forall₂_map_left_iff, OrderedMap.keys, List.forall₂_map_left_iff, List.forall₂_map_right_iff]
        have depicted := entries_depicted (P := fun w p => ∃ m, n = m + 1 ∧ ShownWithin l h m w p) index parts
        exact depicted.imp fun _ _ both => both.1
      rw [List.forall₂_eq_eq_eq] at same
      exact ⟨entries.keys, entries.nodup_keys, same.symm⟩

theorem indexed (keyed : h.Keyed) (shown : ShownWithin l h n v o) : o.Indexed := by
  intro k ps lies p mem
  obtain ⟨m, path, w, inner, -, -⟩ := shown.lies lies
  obtain ⟨keys, -, same⟩ := inner.keys keyed
  have index : p.1 ∈ keys.map Key.object := same ▸ List.mem_map_of_mem mem
  obtain ⟨key, -, made⟩ := List.mem_map.1 index
  exact ⟨key, made.symm⟩

theorem unrepeated (keyed : h.Keyed) (shown : ShownWithin l h n v o) : o.Unrepeated := by
  refine ⟨fun k ps lies => ?_, fun k gs lies => ?_⟩
  · obtain ⟨m, path, w, inner, -, -⟩ := shown.lies lies
    obtain ⟨keys, nodup, same⟩ := inner.keys keyed
    rw [same]
    exact nodup.map fun a b => (a.object_inj b).1
  · obtain ⟨m, path, w, inner, -, -⟩ := shown.lies lies
    cases inner.depictedBy with
    | ref found _ content =>
      cases content with
      | @struct fields _ parts =>
        have same : List.Forall₂ Eq fields.keys (gs.map Prod.fst) := by
          rw [OrderedMap.keys, List.forall₂_map_left_iff, List.forall₂_map_right_iff]
          exact parts.imp fun _ _ both => both.1
        rw [List.forall₂_eq_eq_eq] at same
        exact same ▸ fields.nodup_keys

end ShownWithin

end Value

/-! ## Changes in place -/

/-- What can have become of a heap `h` later, if only objects of `S` and objects that came later were changed in
place. -/
inductive Heap.Later (S : Address → Prop) (h : Heap) : Heap → Prop where
  | refl : Later S h h
  | edit {h' : Heap} (later : Later S h h') (a : Address) (e : Edit) (mine : S a ∨ h.cell? a = none) :
      Later S h (h'.edit a e)
  | place {h' h'' : Heap} {c : Cell} {a : Address} (later : Later S h h') (placed : Placed h' c a h'') : Later S h h''

theorem Heap.Later.cell? {S : Address → Prop} {h h' : Heap} (later : h.Later S h') {a : Address} {c : Cell}
    (found : h.cell? a = some c) (other : ¬ S a) : h'.cell? a = some c := by
  induction later with
  | refl => exact found
  | @edit h' _ b e mine ih =>
    have ne : b ≠ a := by
      rintro rfl
      rcases mine with mine | empty
      · exact other mine
      · rw [found] at empty
        cases empty
    rw [Heap.edit, cell?_update, if_neg ne]
    exact ih
  | place _ placed ih => exact placed.cell?_of_some ih

/-- The content of the value is in `h'` what it was in `h`: all objects in it are as they were, and it comes out as the
same object. -/
structure Value.Undisturbed (l : Library) (h h' : Heap) (v : Value) : Prop where
  cells : ∀ path a, v.Leads h path (.ref a) → h'.cell? a = h.cell? a
  unfold : v.unfold l h' = v.unfold l h

theorem Value.ShownWithin.undisturbed {h h' : Heap}
    (shown : ShownWithin l h n v o) {S : Address → Prop} (later : h.Later S h')
    (apart : ∀ path a, v.Leads h path (.ref a) → ¬ S a) : v.Undisturbed l h h' := by
  have cells (path : List Address) (a : Address) (leads : v.Leads h path (.ref a)) : h'.cell? a = h.cell? a := by
    obtain ⟨c, found⟩ := shown.live leads
    rw [found]
    exact later.cell? found (apart path a leads)
  refine ⟨cells, ?_⟩
  rw [unfold_eq_unfoldWithin, unfold_eq_unfoldWithin]
  exact unfoldWithin_congr ⟨n, o, shown⟩ cells _ []

/-! ## Copies -/

/-- A proper object in which nothing is repeated is shown by the value that is built of it. -/
theorem Object.shownWithin_of_build {s s' : Store} (l : Library)
    (tidy : s.heap.Tidy) (proper : o.Proper n) (once : o.Unrepeated) (made : o.buildWithin n s = .ok v s') :
    v.ShownWithin l s'.heap n o := by
  obtain ⟨-, built⟩ := buildsWithin n o s v s' tidy made
  have ran := built.unfoldWithin l n
  rw [merged_eq_self o once, cut_eq_self fun k p lies _ => (proper k p lies).1] at ran
  exact ⟨fun k p lies => (proper k p lies).2, [], ran⟩

/-- A value that is shown in full is so in every heap that keeps the objects, and the same lies in it there. -/
theorem Value.ShownWithin.kept {h h' : Heap} (shown : ShownWithin l h n v o) (kept : h.KeptIn h') :
    ShownWithin l h' n v o ∧ ∀ path w, v.Leads h' path w ↔ v.Leads h path w := by
  have same (path : List Address) (a : Address) (leads : v.Leads h path (.ref a)) : h'.cell? a = h.cell? a := by
    obtain ⟨c, found⟩ := shown.live leads
    rw [found]
    exact kept a c found
  refine ⟨?_, fun path w => leads_congr same⟩
  obtain ⟨whole, path, ran⟩ := shown
  refine ⟨whole, path, ?_⟩
  rw [unfoldWithin_congr ⟨n, o, whole, path, ran⟩ same]
  exact ran

/-- Values that are shown in full as the same object are equal, if one of them is not nested too deep. -/
theorem Value.equal_of_shown {h : Heap} {m : Nat} {w : Value} (keyed : h.Keyed)
    (closed : h.Closed) (hv : ShownWithin l h n v o) (hw : ShownWithin l h m w o)
    (nests : v.NestsWithin h maxDataDepth) : v.equal h w = .ok true := by
  have live {n : Nat} {v : Value} (shown : ShownWithin l h n v o) : v.LiveIn h := by
    rintro a rfl
    exact shown.live .self
  obtain ⟨b, answer⟩ := equal_answers closed (live hv) (live hw) (.inl nests)
  obtain rfl : b = true := (right_equalWithin _ v w b answer).2 (sameContent_of_shown keyed hv hw)
  exact answer

/-- In every store that a session passes through and whose meter has no limits, a value of data, all of whose objects lie
under fewer containers than data may be deep (there is then no cycle in it), comes out as an object without marks. The
object can be built again, and the value that is built is equal to the first one. The two share no object at all, and
what is done later to objects of the one, and to objects that come later, leaves the content of the other as it is. -/
theorem host_copy_equal_apart {name : String} {meter : Meter} {steps : List Step} {l : Library} {s : Store}
    (passes : (Module.create name meter).Passes steps l s) (free : s.heap.meter.Unlimited) {v : Value}
    (data : ∀ path w, v.Leads s.heap path w → w.IsData s.heap) (fits : v.FitsIn s.heap maxDataDepth) :
    ∃ o, v.unfold l s.heap = .ok o ∧ o.Whole ∧ ∃ v' s', o.build s = .ok v' s' ∧
      v.equal s'.heap v' = .ok true ∧
      (∀ path path' a, v.Leads s'.heap path (.ref a) → ¬ v'.Leads s'.heap path' (.ref a)) ∧
      (∀ h', s'.heap.Later (fun a => ∃ path, v'.Leads s'.heap path (.ref a)) h' → v.Undisturbed l s'.heap h') ∧
      ∀ h', s'.heap.Later (fun a => ∃ path, v.Leads s'.heap path (.ref a)) h' → v'.Undisturbed l s'.heap h' := by
  have order := passes.inOrder
  obtain ⟨o, shown, ran⟩ := Value.shownWithin_of_data (l := l) data fits
  have proper := shown.proper
  have built : Object.Built _ _ s (o.build s) := Object.buildsNew _ (Nat.le_refl _) o s order.tidy
  refine ⟨o, (v.unfold_eq_unfoldWithin l s.heap).trans ran, shown.1, ?_⟩
  cases made : o.build s with
  | error f s' =>
    rw [made] at built
    cases built with
    | error _ reason => exact absurd ⟨free, proper, shown.indexed order.keyed⟩ reason
  | ok v' s' =>
    rw [made] at built
    cases built with
    | ok larger holds =>
      have order' := order.build made
      obtain ⟨again, inside⟩ := shown.kept larger.kept
      have copy := Object.shownWithin_of_build l order.tidy proper (shown.unrepeated order.keyed) made
      have apart (path path' : List Address) (a : Address) (leads : v.Leads s'.heap path (.ref a)) :
          ¬ v'.Leads s'.heap path' (.ref a) := by
        intro leads'
        obtain ⟨c, found⟩ := shown.live ((inside path _).1 leads)
        rw [holds.1 s'.heap (.refl _) path' a leads'] at found
        cases found
      refine ⟨v', s', rfl, ?_, apart, fun h' later => ?_, fun h' later => ?_⟩
      · have nests : v.NestsWithin s'.heap maxDataDepth := fun path a _ leads _ _ => fits path a ((inside path _).1 leads)
        exact Value.equal_of_shown order'.keyed order'.sound.closed again copy nests
      · exact again.undisturbed later fun path a leads ⟨path', leads'⟩ => apart path path' a leads leads'
      · exact copy.undisturbed later fun path' a leads' ⟨path, leads⟩ => apart path path' a leads leads'

/-- A dictionary with a list that lies in it twice is copied, and the copy is equal to it and lies elsewhere. -/
theorem host_copy_equal_apart_shared :
    let m := ((Module.create "m" (.start .standard)).run [.exec .silent [
      .assign (.name "x") (.list [.binary (.str "a") .add (.str "b")]),
      .assign (.name "y") (.dict [(.tuple [.int 1, .str "c"], .list [.name "x", .name "x"])])]]).2
    let v : Value := .ref ⟨4⟩
    let o : Object := .dict [(.tuple [.int 1, .string "c"], .list [.list [.string "ab"], .list [.string "ab"]])]
    m.heap.meter.Unlimited ∧ (∀ path w, v.Leads m.heap path w → w.IsData m.heap) ∧ v.FitsIn m.heap maxDataDepth ∧
      v.unfold m.library m.heap = .ok o ∧ ∃ v' s', o.build m.store = .ok v' s' ∧ v.equal s'.heap v' = .ok true ∧
        ∀ path path' a, v.Leads s'.heap path (.ref a) → ¬ v'.Leads s'.heap path' (.ref a) := by
  intro m v o
  have free : m.heap.meter.Unlimited := Meter.unlimited_of_standard (by decide +kernel)
  have ran : v.unfold m.library m.heap = .ok o := by decide +kernel
  have passes : (Module.create "m" (.start .standard)).Passes _ m.library m.store := .after
  -- What the module is plays no role from here on.
  clear_value m
  have proper : o.Proper 4 := by decide
  have shown : v.ShownWithin m.library m.heap maxDataDepth o :=
    ⟨fun k p lies => (proper k p lies).2, [], (v.unfold_eq_unfoldWithin m.library m.heap).symm.trans ran⟩
  have data (path : List Address) (w : Value) (leads : v.Leads m.heap path w) : w.IsData m.heap := by
    obtain ⟨k, p, -, inner⟩ := shown.leads leads
    exact inner.isData
  obtain ⟨o', ran', -, v', s', made, equal, apart, -⟩ := host_copy_equal_apart passes free data shown.fitsIn
  obtain rfl : o = o' := Except.ok.inj (ran.symm.trans ran')
  exact ⟨free, data, shown.fitsIn, ran, v', s', made, equal, apart⟩

end Scriptlet
