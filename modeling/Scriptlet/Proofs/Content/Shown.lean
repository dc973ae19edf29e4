import Scriptlet.Proofs.Content.Basic
import Scriptlet.Proofs.Object.Shown

/-!
# Contents and objects

Values that are shown in full as the same object have the same content.
-/

namespace Scriptlet

open Heap (Cell)

section

variable {h : Heap} {P Q : Value → Object → Prop} {c d : Cell} {o : Object}

/-- Maps that match entry by entry have the same keys and related values. -/
theorem OrderedMap.Matches.sameKeys {κ α : Type} [Ord κ] [Std.TransOrd κ] [DecidableEq κ] {R : κ → α → α → Prop}
    {m n : OrderedMap κ α} (matched : m.Matches R n) :
    (∀ k, k ∈ m.keys ↔ k ∈ n.keys) ∧ ∀ k a b, m.find? k = some a → n.find? k = some b → R k a b := by
  refine ⟨fun k => by rw [matched.keys_eq], fun k a b ha hb => ?_⟩
  have related := matched.find? k
  rw [ha, hb] at related
  cases related with
  | some related => exact related

/-- The values of a dictionary under the objects of their keys. -/
theorem entries_depicted {entries : OrderedMap Key (Value × Value)} {ps : List (Object × Object)}
    (index : ∀ e ∈ entries.entries, ∀ p, P e.2.1 p → p = e.1.object)
    (parts : List.Forall₂ (fun e p => P e.1 p.1 ∧ P e.2 p.2) entries.values ps) :
    List.Forall₂ (fun e p => e.1.object = p.1 ∧ P e.2.2 p.2) entries.entries ps := by
  refine forall₂_imp_of_mem (fun e he p both => ?_) (List.forall₂_map_left_iff.1 parts)
  exact ⟨(index e he p.1 both.1).symm, both.2⟩

theorem Heap.Cell.DepictedBy.isContainer (content : c.DepictedBy P o) (data : c.isData) (noText : ∀ s, o ≠ .string s) :
    c.isContainer := by
  cases content with
  | text s => exact absurd rfl (noText s)
  | described plain _ =>
    rw [data] at plain
    cases plain
  | _ => rfl

/-- Two containers that one object depicts have the same parts, if indices are depicted by the objects of their
keys. -/
theorem Heap.Cell.sameParts_of_depictedBy (container : c.isContainer)
    (indexP : ∀ entries frozen, c = .dict entries frozen → ∀ e ∈ entries.entries, ∀ p, P e.2.1 p → p = e.1.object)
    (indexQ : ∀ entries frozen, d = .dict entries frozen → ∀ e ∈ entries.entries, ∀ p, Q e.2.1 p → p = e.1.object)
    (first : c.DepictedBy P o) (second : d.DepictedBy Q o) : c.SameParts (fun v w => ∃ p, P v p ∧ Q w p) d := by
  cases first with
  | text s => cases container
  | list parts =>
    cases second with
    | list parts' => exact .list (forall₂_comp parts parts'.flip)
  | tuple parts =>
    cases second with
    | tuple parts' => exact .tuple (forall₂_comp parts parts'.flip)
  | @dict es _ ps parts =>
    cases second with
    | @dict fs _ _ parts' =>
      have left := entries_depicted (indexP _ _ rfl) parts
      have right := entries_depicted (indexQ _ _ rfl) parts'
      have matched : es.Matches (fun _ e f => ∃ p, P e.2 p ∧ Q f.2 p) fs := by
        refine (forall₂_comp left right.flip).imp fun e f both => ?_
        obtain ⟨p, ⟨key, value⟩, key', value'⟩ := both
        exact ⟨(e.1.object_inj f.1).1 (key.trans key'.symm), p.2, value, value'⟩
      exact .dict matched.sameKeys.1 matched.sameKeys.2
  | @struct es gs parts =>
    cases second with
    | @struct fs _ parts' =>
      have matched : es.Matches (fun _ v w => ∃ p, P v p ∧ Q w p) fs := by
        refine (forall₂_comp parts parts'.flip).imp fun e f both => ?_
        obtain ⟨g, ⟨name, value⟩, name', value'⟩ := both
        exact ⟨name.trans name'.symm, g.2, value, value'⟩
      exact .struct matched.sameKeys.1 matched.sameKeys.2
  | described plain text =>
    rw [isData_of_isContainer container] at plain
    cases plain

namespace Value

variable {l : Library} {n m : Nat} {v w : Value} {a : Address}

/-- A value that is shown as a string is a string. -/
theorem ShownWithin.text? {s : String} (shown : ShownWithin l h n v (.string s)) : v.text? h = .ok (some s) := by
  cases shown.depictedBy with
  | text s => rfl
  | ref found data content =>
    cases content with
    | text s => exact text?_of_cell found

/-- In a keyed heap, the indices of a dictionary are shown as the objects of their keys. -/
theorem ShownWithin.index (keyed : h.Keyed) {entries : OrderedMap Key (Value × Value)} {frozen : Bool}
    (found : h.cell? a = some (.dict entries frozen)) {e : Key × Value × Value} (mem : e ∈ entries.entries)
    (shown : ShownWithin l h n e.2.1 o) : o = e.1.object :=
  shown.eq_object (keyed.cells a _ found e mem)

theorem sameContent_of_shown (keyed : h.Keyed) (hv : ShownWithin l h n v o) (hw : ShownWithin l h m w o) :
    SameContent h v w := by
  refine ⟨fun v w => ∃ n m o, ShownWithin l h n v o ∧ ShownWithin l h m w o, ?_, n, m, o, hv, hw⟩
  rintro v w ⟨n, m, o, hv, hw⟩
  -- An object that is a string is that of a string; other than that, the object tells the sort of the value.
  by_cases text : ∃ s, o = .string s
  · obtain ⟨s, rfl⟩ := text
    exact .text hv.text? hw.text?
  cases hv.depictedBy with
  | none =>
    cases hw.depictedBy with
    | none => exact .same _
    | ref _ _ content => cases content
  | bool b =>
    cases hw.depictedBy with
    | bool b => exact .same _
    | ref _ _ content => cases content
  | int i =>
    cases hw.depictedBy with
    | int i => exact .same _
    | ref _ _ content => cases content
  | text s => exact absurd ⟨s, rfl⟩ text
  | @ref a c _ found data content =>
    cases hw.depictedBy with
    | none => cases content
    | bool b => cases content
    | int i => cases content
    | text s => exact absurd ⟨s, rfl⟩ text
    | @ref b d _ found' _ content' =>
      have container : c.isContainer := content.isContainer data fun s same => text ⟨s, same⟩
      have parts := Cell.sameParts_of_depictedBy container (fun entries frozen same e he p inner => ?_)
        (fun entries frozen same e he p inner => ?_) content content'
      · refine .container found found' (parts.mono fun v w both => ?_)
        obtain ⟨p, ⟨n, -, hv⟩, m, -, hw⟩ := both
        exact ⟨n, m, p, hv, hw⟩
      · subst same
        obtain ⟨_, -, inner⟩ := inner
        exact inner.index keyed found he
      · subst same
        obtain ⟨_, -, inner⟩ := inner
        exact inner.index keyed found' he

end Value

end

end Scriptlet
