import Scriptlet.Proofs.Object.Building
import Scriptlet.Proofs.Object.Places

/-!
# Values that are shown in full

A value is shown in full if there is no mark in its object. What it looks like one level down can then be read off the
object. In particular such a value has a key exactly if its object is that of the key.
-/

namespace Scriptlet

open Heap (Cell)

theorem Key.objects_eq_map (keys : List Key) : objects keys = keys.map object := by
  induction keys with
  | nil => rfl
  | cons key keys ih => rw [objects, ih, List.map_cons]

/-! ## Objects without marks -/

/-- Nothing in an object only ever comes out. -/
def Object.Whole (o : Object) : Prop := ∀ k (p : Object), p.Lies k o → p.outputOnly = false

theorem Object.Whole.part {o p : Object} (whole : o.Whole) (part : p ∈ o.parts) : p.Whole :=
  fun _ q lies => whole _ q (.inside part lies)

/-- What lies in an object without marks is one. -/
theorem Object.Whole.lies {o p : Object} {k : Nat} (whole : o.Whole) (lies : p.Lies k o) : p.Whole := by
  induction lies with
  | self => exact whole
  | inside part _ ih => exact ih (whole.part part)

namespace Heap.Cell.DepictedBy

/-- What holds of the parts of an object can be added to the relation that it depicts a cell by. -/
theorem imp_of_mem {R S : Value → Object → Prop} {c : Cell} {o : Object}
    (imp : ∀ v, ∀ p ∈ o.parts, R v p → S v p) (depicted : c.DepictedBy R o) : c.DepictedBy S o := by
  have items {vs : List Value} {os : List Object} (imp : ∀ v, ∀ p ∈ os, R v p → S v p)
      (parts : List.Forall₂ R vs os) : List.Forall₂ S vs os :=
    (forall₂_imp_of_mem (fun p hp v => imp v p hp) parts.flip).flip
  cases depicted with
  | text s => exact .text s
  | list parts => exact .list (items imp parts)
  | tuple parts => exact .tuple (items imp parts)
  | dict parts =>
    refine .dict (forall₂_imp_of_mem (fun p hp e both => ?_) parts.flip).flip
    have inner (v : Value) (q : Object) (hq : q ∈ [p.1, p.2]) : R v q → S v q :=
      imp v q (List.mem_flatMap.2 ⟨p, hp, hq⟩)
    exact ⟨inner e.1 p.1 (by simp) both.1, inner e.2 p.2 (by simp) both.2⟩
  | struct parts =>
    refine .struct (forall₂_imp_of_mem (fun g hg f both => ?_) parts.flip).flip
    exact ⟨both.1, imp f.2 g.2 (List.mem_map_of_mem hg) both.2⟩
  | described plain text => exact .described plain text

end Heap.Cell.DepictedBy

namespace Value

/-- An object depicts a value that is no function, where `R` relates the values in it to the objects that depict
them. -/
inductive DepictedBy (h : Heap) (R : Value → Object → Prop) : Value → Object → Prop where
  | none : DepictedBy h R .none .none
  | bool (b : Bool) : DepictedBy h R (.bool b) (.bool b)
  | int (i : Integer) : DepictedBy h R (.int i) (.int i)
  | text (s : String) : DepictedBy h R (.text s) (.string s)
  | ref {a : Address} {c : Cell} {o : Object} (found : h.cell? a = some c) (data : c.isData)
      (content : c.DepictedBy R o) : DepictedBy h R (.ref a) o

/-- The value comes out as an object without marks, if there may be `n` more objects on the path to what lies in it. -/
def ShownWithin (l : Library) (h : Heap) (n : Nat) (v : Value) (o : Object) : Prop :=
  o.Whole ∧ ∃ path, v.unfoldWithin l h n path = .ok o

variable {l : Library} {h : Heap} {n k d : Nat} {path : List Address} {a : Address} {c : Cell} {v w : Value}
  {o p : Object} {key : Key}

theorem ShownWithin.depictedBy (shown : ShownWithin l h n v o) :
    v.DepictedBy h (fun w p => ∃ m, n = m + 1 ∧ ShownWithin l h m w p) o := by
  obtain ⟨whole, path, ran⟩ := shown
  have inner : o.outputOnly = false := whole 0 o .self
  cases v with
  | none =>
    cases n <;> cases ran <;> exact .none
  | bool b =>
    cases n <;> cases ran <;> exact .bool b
  | int i =>
    cases n <;> cases ran <;> exact .int i
  | text s =>
    cases n <;> cases ran <;> exact .text s
  | native id =>
    cases n <;> obtain ⟨e, -, made⟩ := Attempt.bind_eq_ok.1 ran <;> cases made <;> cases inner
  | ref a =>
    rcases unfoldWithin_ref_cases ran with ⟨-, c, -, rfl⟩ | ⟨-, -, rfl⟩ | ⟨-, m, c, rfl, found, content⟩
    · cases inner
    · cases inner
    · refine .ref found ?_ (content.imp_of_mem fun w p part ran => ⟨m, rfl, whole.part part, a :: path, ran⟩)
      cases content with
      | described _ _ => cases inner
      | _ => rfl

/-- The parts of a value that is shown in full are, with one object more on the path to them. -/
theorem ShownWithin.part (shown : ShownWithin l h n (.ref a) o) (found : h.cell? a = some c) (part : w ∈ c.parts) :
    ∃ m p, n = m + 1 ∧ ShownWithin l h m w p := by
  cases shown.depictedBy with
  | ref found' _ content =>
    obtain rfl := Option.some.inj (found.symm.trans found')
    obtain ⟨p, -, m, room, inner⟩ := content.of_mem part
    exact ⟨m, p, room, inner⟩

/-- What lies in a value that is shown in full is shown in full. -/
theorem ShownWithin.leads (shown : ShownWithin l h n v o) (leads : Leads h v path w) :
    ∃ m p, n = m + path.length ∧ ShownWithin l h m w p := by
  induction leads with
  | self => exact ⟨n, o, rfl, shown⟩
  | inside _ found part ih =>
    obtain ⟨k, q, room, outer⟩ := ih
    obtain ⟨m, p, rfl, inner⟩ := outer.part found part
    refine ⟨m, p, ?_, inner⟩
    rw [room, List.length_cons, Nat.add_right_comm, Nat.add_assoc]

/-- A value that is shown in full fits. -/
theorem ShownWithin.fitsIn (shown : ShownWithin l h n v o) : FitsIn h n v := by
  intro path a leads
  obtain ⟨m, p, room, whole, above, ran⟩ := shown.leads leads
  have inner : p.outputOnly = false := whole 0 p .self
  rcases unfoldWithin_ref_cases ran with ⟨-, c, -, rfl⟩ | ⟨-, -, rfl⟩ | ⟨-, k, c, rfl, -, -⟩
  · cases inner
  · cases inner
  · omega

/-- What lies in the object shows what lies in the value. -/
theorem ShownWithin.lies (shown : ShownWithin l h n v o) (lies : p.Lies k o) :
    ∃ m path w, ShownWithin l h m w p ∧ Leads h v path w ∧ path.length = k := by
  obtain ⟨whole, above, ran⟩ := shown
  obtain ⟨path, w, leads, length, -, ran⟩ := leads_of_lies ran lies
  exact ⟨_, path, w, ⟨whole.lies lies, _, ran⟩, leads, length⟩

/-- A string, a container or a value off the heap that is no function. -/
def IsData (h : Heap) : Value → Prop
  | .native _ => False
  | .ref a => ∃ c, h.cell? a = some c ∧ c.isData
  | _ => True

theorem ShownWithin.isData (shown : ShownWithin l h n v o) : v.IsData h := by
  cases shown.depictedBy with
  | ref found data _ => exact ⟨_, found, data⟩
  | _ => trivial

theorem IsData.named (data : v.IsData h) : v.Named l h := by
  cases v with
  | native id => exact data.elim
  | ref a =>
    obtain ⟨c, found, data⟩ := data
    exact ⟨c, found, Cell.named_of_isData data⟩
  | _ => trivial

/-- A value in which there is only data, and which fits, is shown in full. -/
theorem shownWithin_of_data (data : ∀ path w, Leads h v path w → w.IsData h) (fits : FitsIn h n v) :
    ∃ o, ShownWithin l h n v o ∧ v.unfoldWithin l h n [] = .ok o := by
  obtain ⟨o, ran⟩ := exists_unfoldWithin (fun path w leads => (data path w leads).named (l := l)) n []
  refine ⟨o, ⟨fun k p lies => Bool.eq_false_iff.2 fun out => ?_, [], ran⟩, ran⟩
  obtain ⟨path, w, leads, rfl, le, ran⟩ := leads_of_lies ran lies
  have here := data path w leads
  rw [List.append_nil] at ran
  cases w with
  | ref a =>
    rcases unfoldWithin_ref_cases ran with ⟨on, -⟩ | ⟨-, none, -⟩ | ⟨-, m, c, -, found, content⟩
    · exact (fits.acyclic.of_leads leads).avoids leads a on [] .self
    · exact absurd (fits path a leads) (Nat.not_lt_of_le (Nat.le_of_sub_eq_zero none))
    · obtain ⟨d, found', here⟩ := here
      obtain rfl := Option.some.inj (found.symm.trans found')
      cases content with
      | described plain _ =>
        rw [here] at plain
        cases plain
      | _ => cases out
  | native id => exact here
  | _ =>
    obtain ⟨id, same⟩ := (unfoldWithin_of_not_ref rfl ran).2.2 out
    cases same

/-- The object of a value that is shown in full depends on the objects in the value alone. -/
theorem unfoldWithin_congr {h' : Heap} (shown : ∃ m p, ShownWithin l h m v p)
    (same : ∀ path a, Leads h v path (.ref a) → h'.cell? a = h.cell? a) (n : Nat) (path : List Address) :
    v.unfoldWithin l h' n path = v.unfoldWithin l h n path := by
  induction n generalizing v path with
  | zero =>
    cases v with
    | ref a => simp only [unfoldWithin, Heap.read, same [] a .self]
    | _ => rfl
  | succ n ih =>
    cases v with
    | ref a =>
      have read : h'.read a = h.read a := by rw [Heap.read, Heap.read, same [] a .self]
      by_cases on : a ∈ path
      · have met : path.contains a = true := List.contains_iff_mem.2 on
        simp only [unfoldWithin, met, if_true, read]
      · obtain ⟨m, p, shown⟩ := shown
        obtain ⟨c, found, data⟩ := shown.isData
        rw [unfoldWithin_succ on, unfoldWithin_succ on, read, Heap.read_of_cell? found]
        refine (Cell.convert_eq_of_isData data).trans (Cell.convert_congr fun w part => ?_)
        obtain ⟨k, q, -, inner⟩ := shown.part found part
        exact ih ⟨k, q, inner⟩ (fun inner b leads => same _ b (leads.of_part found part)) (a :: path)
    | _ => rfl

/-! ## Keys -/

/-- A value that is shown as the object of a key has the key. -/
theorem ShownWithin.keyWithin (shown : ShownWithin l h n v key.object) : v.keyWithin h (n + 1) = .ok key := by
  induction n using Nat.strong_induction_on generalizing v key with
  | h n ih =>
    generalize same : key.object = o at shown
    cases shown.depictedBy with
    | none => rw [(key.object_inj .none).1 same, Value.keyWithin]
    | bool b => rw [(key.object_inj (.bool b)).1 same, Value.keyWithin]
    | int i => rw [(key.object_inj (.int i)).1 same, Value.keyWithin]
    | text s => rw [(key.object_inj (.str s)).1 same, Value.keyWithin]
    | @ref a c _ found data content =>
      simp only [Value.keyWithin, Heap.read_of_cell? found]
      cases content with
      | text s =>
        rw [(key.object_inj (.str s)).1 same]
        rfl
      | @tuple items os parts =>
        cases key with
        | tuple keys =>
          rw [Key.object, Object.tuple.injEq, Key.objects_eq_map] at same
          subst same
          have hashed : items.toList.mapM (Value.keyWithin h n) = .ok keys := by
            rw [Attempt.mapM_eq_ok]
            refine (List.forall₂_map_right_iff.1 parts).imp fun w key part => ?_
            obtain ⟨m, rfl, inner⟩ := part
            exact ih m (Nat.lt_succ_self m) inner
          exact Attempt.bind_eq_ok.2 ⟨_, rfl, Attempt.bind_eq_ok.2 ⟨keys, hashed, rfl⟩⟩
        | _ => cases same
      | list _ => cases key <;> cases same
      | dict _ => cases key <;> cases same
      | struct _ => cases key <;> cases same
      | described plain _ =>
        rw [data] at plain
        cases plain

/-- A value that has a key is shown as the object of the key. -/
theorem ShownWithin.eq_object (shown : ShownWithin l h n v o) (hashed : v.keyWithin h d = .ok key) :
    o = key.object := by
  induction d generalizing v o n key with
  | zero => cases hashed
  | succ d ih =>
    cases hasKey_of_keyWithin hashed with
    | none =>
      cases shown.depictedBy
      rfl
    | bool b =>
      cases shown.depictedBy
      rfl
    | int i =>
      cases shown.depictedBy
      rfl
    | literal s =>
      cases shown.depictedBy
      rfl
    | text read =>
      cases shown.depictedBy with
      | ref found _ content =>
        cases Option.some.inj ((Heap.cell?_of_read read).symm.trans found)
        cases content with
        | text s => rfl
        | described plain _ => cases plain
    | @tuple a items keys read itemsHashed =>
      cases shown.depictedBy with
      | ref found _ content =>
        cases Option.some.inj ((Heap.cell?_of_read read).symm.trans found)
        cases content with
        | described plain _ => cases plain
        | @tuple _ os parts =>
          rw [Key.object, Key.objects_eq_map]
          have same : List.Forall₂ Eq os (keys.map Key.object) := by
            rw [List.forall₂_map_right_iff]
            refine (forall₂_comp parts.flip itemsHashed).imp fun p key both => ?_
            obtain ⟨w, ⟨m, -, inner⟩, hashed⟩ := both
            exact ih inner hashed
          rw [List.forall₂_eq_eq_eq] at same
          rw [same]

end Value

end Scriptlet
