import Scriptlet.Proofs.Dict.Keyed
import Scriptlet.Proofs.Heap.Leads
import Scriptlet.Proofs.Strings

/-!
# Contents

Two values have the same content if they look the same, however far one looks into them. Values can be cyclic, so this
cannot be said by recursion: it is the largest relation that looks through one level and relates what is below.
-/

namespace Scriptlet

open Heap (Cell)

/-- Two containers are of the same sort, and `R` relates their parts one by one: the items of lists and of tuples by
their place, the values of dictionaries by their keys and those of structs by their names. -/
inductive Heap.Cell.SameParts (R : Value → Value → Prop) : Cell → Cell → Prop where
  | list {vs ws : Array Value} {frozen frozen' : Bool} (items : List.Forall₂ R vs.toList ws.toList) :
      SameParts R (.list vs frozen) (.list ws frozen')
  | tuple {vs ws : Array Value} (items : List.Forall₂ R vs.toList ws.toList) : SameParts R (.tuple vs) (.tuple ws)
  | dict {es fs : OrderedMap Key (Value × Value)} {frozen frozen' : Bool} (keys : ∀ k, k ∈ es.keys ↔ k ∈ fs.keys)
      (values : ∀ k e f, es.find? k = some e → fs.find? k = some f → R e.2 f.2) :
      SameParts R (.dict es frozen) (.dict fs frozen')
  | struct {es fs : OrderedMap String Value} (names : ∀ x, x ∈ es.keys ↔ x ∈ fs.keys)
      (values : ∀ x v w, es.find? x = some v → fs.find? x = some w → R v w) : SameParts R (.struct es) (.struct fs)

namespace Value

/-- Two values look the same one level down, where `R` relates what is below: they are the same value, they are strings
of the same text wherever these are stored, or they are containers with the same parts. -/
inductive LooksSame (h : Heap) (R : Value → Value → Prop) : Value → Value → Prop where
  | same (v : Value) : LooksSame h R v v
  | text {v w : Value} {s : String} (hv : v.text? h = .ok (some s)) (hw : w.text? h = .ok (some s)) :
      LooksSame h R v w
  | container {a b : Address} {c d : Cell} (ha : h.cell? a = some c) (hb : h.cell? b = some d)
      (parts : c.SameParts R d) : LooksSame h R (.ref a) (.ref b)

/-- Two values have the same content: they are in a relation whose members look the same, one level down, in terms of
the relation itself. -/
def SameContent (h : Heap) (v w : Value) : Prop := ∃ R, (∀ v w, R v w → LooksSame h R v w) ∧ R v w

end Value

/-! ## Looking one level down -/

section

variable {h : Heap} {R S : Value → Value → Prop} {u v w : Value} {c d e : Cell}

namespace Heap.Cell.SameParts

theorem mono (imp : ∀ v w, R v w → S v w) (parts : c.SameParts R d) : c.SameParts S d := by
  cases parts with
  | list items => exact .list (items.imp imp)
  | tuple items => exact .tuple (items.imp imp)
  | dict keys values => exact .dict keys fun k e f he hf => imp _ _ (values k e f he hf)
  | struct names values => exact .struct names fun x v w hv hw => imp _ _ (values x v w hv hw)

theorem symm (parts : c.SameParts R d) : d.SameParts (fun v w => R w v) c := by
  cases parts with
  | list items => exact .list items.flip
  | tuple items => exact .tuple items.flip
  | dict keys values => exact .dict (fun k => (keys k).symm) fun k e f he hf => values k f e hf he
  | struct names values => exact .struct (fun x => (names x).symm) fun x v w hv hw => values x w v hw hv

theorem trans (first : c.SameParts R d) (second : d.SameParts S e) : c.SameParts (fun u w => ∃ v, R u v ∧ S v w) e := by
  cases first with
  | list items =>
    cases second with
    | list items' => exact .list (forall₂_comp items items')
  | tuple items =>
    cases second with
    | tuple items' => exact .tuple (forall₂_comp items items')
  | dict keys values =>
    cases second with
    | dict keys' values' =>
      refine .dict (fun k => (keys k).trans (keys' k)) fun k e g he hg => ?_
      obtain ⟨f, hf⟩ := (OrderedMap.mem_keys_iff _ k).1 ((keys k).1 ((OrderedMap.mem_keys_iff _ k).2 ⟨e, he⟩))
      exact ⟨f.2, values k e f he hf, values' k f g hf hg⟩
  | struct names values =>
    cases second with
    | struct names' values' =>
      refine .struct (fun x => (names x).trans (names' x)) fun x u w hu hw => ?_
      obtain ⟨v, hv⟩ := (OrderedMap.mem_keys_iff _ x).1 ((names x).1 ((OrderedMap.mem_keys_iff _ x).2 ⟨u, hu⟩))
      exact ⟨v, values x u v hu hv, values' x v w hv hw⟩

theorem isContainer (parts : c.SameParts R d) : c.isContainer ∧ d.isContainer := by
  cases parts <;> exact ⟨rfl, rfl⟩

end Heap.Cell.SameParts

namespace Value

theorem text?_of_container {a : Address} (found : h.cell? a = some c) (container : c.isContainer) :
    (ref a).text? h = .ok Option.none := by
  simp only [text?, Heap.read_of_cell? found]
  cases c with
  | text s => cases container
  | _ => rfl

theorem LooksSame.mono (imp : ∀ v w, R v w → S v w) (looks : LooksSame h R v w) : LooksSame h S v w := by
  cases looks with
  | same v => exact .same v
  | text hv hw => exact .text hv hw
  | container ha hb parts => exact .container ha hb (parts.mono imp)

/-- What looks the same as a string is a string of the same text. -/
theorem LooksSame.text?_eq (looks : LooksSame h R v w) {s : String} (hv : v.text? h = .ok (some s)) :
    w.text? h = .ok (some s) := by
  cases looks with
  | same v => exact hv
  | text hv' hw => rw [hw, ← hv', hv]
  | container ha hb parts =>
    rw [text?_of_container ha parts.isContainer.1] at hv
    cases hv

/-! ## The largest relation -/

namespace SameContent

theorem looksSame (same : SameContent h v w) : LooksSame h (SameContent h) v w := by
  obtain ⟨R, closed, related⟩ := same
  exact (closed v w related).mono fun v w related => ⟨R, closed, related⟩

theorem of_looksSame (looks : LooksSame h (SameContent h) v w) : SameContent h v w :=
  ⟨LooksSame h (SameContent h), fun _ _ looks => looks.mono fun _ _ => looksSame, looks⟩

theorem refl (v : Value) : SameContent h v v := of_looksSame (.same v)

theorem symm (same : SameContent h v w) : SameContent h w v := by
  refine ⟨fun v w => SameContent h w v, fun v w same => ?_, same⟩
  cases same.looksSame with
  | same v => exact .same v
  | text hv hw => exact .text hw hv
  | container ha hb parts => exact .container hb ha parts.symm

theorem trans (first : SameContent h u v) (second : SameContent h v w) : SameContent h u w := by
  refine ⟨fun u w => ∃ v, SameContent h u v ∧ SameContent h v w, ?_, v, first, second⟩
  rintro u w ⟨v, first, second⟩
  cases first.looksSame with
  | same u => exact second.looksSame.mono fun v w same => ⟨v, refl v, same⟩
  | text hu hv => exact .text hu (second.looksSame.text?_eq hv)
  | container ha hb parts =>
    cases second.looksSame with
    | same => exact .container ha hb (parts.mono fun v w same => ⟨w, same, refl w⟩)
    | text hv hw =>
      rw [text?_of_container hb parts.isContainer.2] at hv
      cases hv
    | container hb' hc parts' =>
      obtain rfl := Option.some.inj (hb.symm.trans hb')
      exact .container ha hc (parts.trans parts')

end SameContent

end Value

end

end Scriptlet
