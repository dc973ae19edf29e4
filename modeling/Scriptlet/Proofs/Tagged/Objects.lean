import Scriptlet.Object.Tagged
import Scriptlet.Proofs.Data.Lists
import Scriptlet.Proofs.Tagged.Programs

/-!
# The spellings of an object

An object may be spelled in several ways when it is read: most variants have a second tag, and null may be carried where
nothing is. The data that are read as an object are exactly its spellings. One of them, with main tags only, is the one
that is written.
-/

namespace Scriptlet

/-! ## What a reader has accepted -/

namespace Datum

variable {α β : Type} {d : Datum}

/-- A pair is read from a list of two. -/
theorem pair?_eq_some {first : Datum → Option α} {second : Datum → Option β} {p : α × β}
    (h : pair? first second d = some p) : ∃ a b, d = .list [a, b] ∧ first a = some p.1 ∧ second b = some p.2 := by
  unfold pair? at h
  split at h
  next a b =>
    simp only [Option.bind_eq_bind, Option.bind_eq_some_iff, Option.pure_def, Option.some.injEq] at h
    obtain ⟨x, hx, y, hy, rfl⟩ := h
    exact ⟨a, b, rfl, hx, hy⟩
  next => cases h

theorem eq_text_of_text? {s : String} (h : d.text? = some s) : d = .text s := by
  cases d with
  | text t => rw [Option.some.inj h]
  | _ => cases h

theorem eq_bool_of_bool? {b : Bool} (h : d.bool? = some b) : d = .bool b := by
  cases d with
  | bool b' => rw [Option.some.inj h]
  | _ => cases h

/-- The integer that is read is the one that is written. -/
theorem eq_int_of_integer? {n : Integer} (h : d.integer? = some n) : d = .int n.toInt := by
  cases d with
  | int i => rw [Integer.toInt_of_ofInt? h]
  | _ => cases h

theorem list?_eq_some {read : Datum → Option α} {as : List α} (h : d.list? read = some as) :
    ∃ ds, d = .list ds ∧ ds.mapM read = some as := by
  cases d with
  | list ds => exact ⟨ds, rfl, h⟩
  | _ => cases h

theorem eq_text_of_variant? {tag : String} (h : d.variant? = some (tag, none)) : d = .text tag := by
  unfold variant? at h
  split at h <;> simp_all

/-- A variant that carries something is the only field of its datum. -/
theorem eq_tagged_of_variant? {tag : String} {payload : Datum}
    (h : d.variant? = some (tag, some payload)) : d = .tagged tag payload := by
  unfold variant? at h
  split at h <;> simp_all [tagged]

/-- What is read by a table stands under one of its tags. -/
theorem oneOf?_eq_some {table : List (String × Payload α)} {a : α} (h : d.oneOf? table = some a) :
    ∃ tag payload read, d.variant? = some (tag, payload) ∧ (tag, read) ∈ table ∧ read payload = some a := by
  simp only [oneOf?, Option.bind_eq_bind, Option.bind_eq_some_iff] at h
  obtain ⟨⟨tag, payload⟩, variant, read, entry, h⟩ := h
  obtain ⟨before, after, parts, -⟩ := List.lookup_eq_some_iff.1 entry
  exact ⟨tag, payload, read, variant, by simp [parts], h⟩

end Datum

/-! ## Spellings -/

namespace Object

open Datum

variable {d : Datum} {o : Object}

mutual

/-- The data that are read as an object. A variant may stand under its second tag, and null may be carried where nothing
is. -/
inductive Spells : Datum → Object → Prop where
  | none {tag : String} (h : tag = "None" ∨ tag = "none" ∨ tag = "NoneType") : Spells (.text tag) .none
  | null {tag : String} (h : tag = "None" ∨ tag = "none" ∨ tag = "NoneType") : Spells (.tagged tag .null) .none
  | bool {tag : String} (h : tag = "Bool" ∨ tag = "bool") (b : Bool) : Spells (.tagged tag (.bool b)) (.bool b)
  | int {tag : String} (h : tag = "Int" ∨ tag = "int") (n : Integer) : Spells (.tagged tag (.int n.toInt)) (.int n)
  | string {tag : String} (h : tag = "String" ∨ tag = "str") (s : String) :
    Spells (.tagged tag (.text s)) (.string s)
  | list {tag : String} (h : tag = "List" ∨ tag = "list") {ds : List Datum} {os : List Object}
    (items : SpellsAll ds os) : Spells (.tagged tag (.list ds)) (.list os)
  | tuple {tag : String} (h : tag = "Tuple" ∨ tag = "tuple") {ds : List Datum} {os : List Object}
    (items : SpellsAll ds os) : Spells (.tagged tag (.list ds)) (.tuple os)
  | dict {tag : String} (h : tag = "Dict" ∨ tag = "dict") {ds : List Datum} {pairs : List (Object × Object)}
    (items : SpellsPairs ds pairs) : Spells (.tagged tag (.list ds)) (.dict pairs)
  | struct {tag : String} (h : tag = "Struct" ∨ tag = "struct") {ds : List Datum}
    {fields : List (String × Object)} (items : SpellsFields ds fields) :
    Spells (.tagged tag (.list ds)) (.struct fields)
  | described (s : String) : Spells (.tagged "Repr" (.text s)) (.described s)
  | cycle (s : String) : Spells (.tagged "Cycle" (.text s)) (.cycle s)

inductive SpellsAll : List Datum → List Object → Prop where
  | nil : SpellsAll [] []
  | cons {d : Datum} {ds : List Datum} {o : Object} {os : List Object} (first : Spells d o)
    (rest : SpellsAll ds os) : SpellsAll (d :: ds) (o :: os)

inductive SpellsPairs : List Datum → List (Object × Object) → Prop where
  | nil : SpellsPairs [] []
  | cons {d d' : Datum} {ds : List Datum} {k v : Object} {ps : List (Object × Object)} (key : Spells d k)
    (value : Spells d' v) (rest : SpellsPairs ds ps) : SpellsPairs (.list [d, d'] :: ds) ((k, v) :: ps)

inductive SpellsFields : List Datum → List (String × Object) → Prop where
  | nil : SpellsFields [] []
  | cons (x : String) {d : Datum} {ds : List Datum} {v : Object} {fs : List (String × Object)}
    (value : Spells d v) (rest : SpellsFields ds fs) :
    SpellsFields (.list [.text x, d] :: ds) ((x, v) :: fs)

end

/-! ### All spellings are read -/

mutual

/-- A spelling is read whenever the bound allows for its nesting, whichever tags it uses. -/
theorem Spells.read_eq : (n : Nat) → {d : Datum} → {o : Object} → Spells d o → d.depth ≤ n → read n d = some o
  | 0, d, _, _, hn => absurd hn (Nat.not_le_of_gt d.depth_pos)
  | n + 1, _, _, .none h, _ => by
    obtain rfl | rfl | rfl := h <;> rfl
  | n + 1, _, _, .null h, _ => by
    obtain rfl | rfl | rfl := h <;> rfl
  | n + 1, _, _, .bool h b, _ => by
    obtain rfl | rfl := h <;> rfl
  | n + 1, _, _, .int h i, _ => by
    obtain rfl | rfl := h <;>
      simp [read, oneOf?_tagged, List.lookup_cons]
  | n + 1, _, _, .string h s, _ => by
    obtain rfl | rfl := h <;> rfl
  | n + 1, _, _, .list h items, hn => by
    have inner := items.mapM_read n (by simp only [depth_tagged, depth] at hn; omega)
    obtain rfl | rfl := h <;>
      simp [read, oneOf?_tagged, List.lookup_cons, inner]
  | n + 1, _, _, .tuple h items, hn => by
    have inner := items.mapM_read n (by simp only [depth_tagged, depth] at hn; omega)
    obtain rfl | rfl := h <;>
      simp [read, oneOf?_tagged, List.lookup_cons, inner]
  | n + 1, _, _, .dict h items, hn => by
    have inner := items.mapM_read n (by simp only [depth_tagged, depth] at hn; omega)
    obtain rfl | rfl := h <;>
      simp [read, oneOf?_tagged, List.lookup_cons, inner]
  | n + 1, _, _, .struct h items, hn => by
    have inner := items.mapM_read n (by simp only [depth_tagged, depth] at hn; omega)
    obtain rfl | rfl := h <;>
      simp [read, oneOf?_tagged, List.lookup_cons, inner]
  | n + 1, _, _, .described s, _ => rfl
  | n + 1, _, _, .cycle s, _ => rfl

theorem SpellsAll.mapM_read (n : Nat) : {ds : List Datum} → {os : List Object} → SpellsAll ds os →
    depthList ds ≤ n → ds.mapM (read n) = some os
  | _, _, .nil, _ => rfl
  | _, _, .cons first rest, hn => by
    simp only [depthList] at hn
    have first_read := first.read_eq n (by omega)
    have rest_read := rest.mapM_read n (by omega)
    simp [first_read, rest_read]

theorem SpellsPairs.mapM_read (n : Nat) : {ds : List Datum} → {ps : List (Object × Object)} →
    SpellsPairs ds ps → depthList ds ≤ n → ds.mapM (pair? (read n) (read n)) = some ps
  | _, _, .nil, _ => rfl
  | _, _, .cons key value rest, hn => by
    simp only [depthList, depth] at hn
    have key_read := key.read_eq n (by omega)
    have value_read := value.read_eq n (by omega)
    have rest_read := rest.mapM_read n (by omega)
    simp [key_read, value_read, rest_read]

theorem SpellsFields.mapM_read (n : Nat) : {ds : List Datum} → {fs : List (String × Object)} →
    SpellsFields ds fs → depthList ds ≤ n → ds.mapM (pair? text? (read n)) = some fs
  | _, _, .nil, _ => rfl
  | _, _, .cons x value rest, hn => by
    simp only [depthList, depth] at hn
    have value_read := value.read_eq n (by omega)
    have rest_read := rest.mapM_read n (by omega)
    simp [value_read, rest_read]

end

/-! ### Nothing else is read -/

section refused

variable {n : Nat} (sound : ∀ {d : Datum} {o : Object}, read n d = some o → Spells d o) {ds : List Datum}

include sound

/-- Lists that are read are spellings if their items are. -/
theorem spellsAll_of_mapM {os : List Object} (h : ds.mapM (read n) = some os) : SpellsAll ds os := by
  replace h := mapM_eq_some.1 h
  induction h with
  | nil => exact .nil
  | cons first _ ih => exact .cons (sound first) ih

theorem spellsPairs_of_mapM {ps : List (Object × Object)}
    (h : ds.mapM (pair? (read n) (read n)) = some ps) : SpellsPairs ds ps := by
  replace h := mapM_eq_some.1 h
  induction h with
  | nil => exact .nil
  | cons first _ ih =>
    obtain ⟨d, d', rfl, key, value⟩ := pair?_eq_some first
    exact .cons (sound key) (sound value) ih

theorem spellsFields_of_mapM {fs : List (String × Object)}
    (h : ds.mapM (pair? text? (read n)) = some fs) : SpellsFields ds fs := by
  replace h := mapM_eq_some.1 h
  induction h with
  | nil => exact .nil
  | @cons _ f _ _ first _ ih =>
    obtain ⟨d, d', rfl, name, value⟩ := pair?_eq_some first
    obtain rfl := eq_text_of_text? name
    exact .cons f.1 (sound value) ih

end refused

/-- What is read as none stands alone under its tag or carries null. -/
theorem spells_of_unit {tag : String} {payload : Option Datum}
    (h : tag = "None" ∨ tag = "none" ∨ tag = "NoneType") (variant : d.variant? = some (tag, payload))
    (carried : Payload.unit Object.none payload = some o) : Spells d o := by
  match payload with
  | .none =>
    obtain rfl := eq_text_of_variant? variant
    obtain rfl := Option.some.inj carried
    exact .none h
  | some .null =>
    obtain rfl := eq_tagged_of_variant? variant
    obtain rfl := Option.some.inj carried
    exact .null h

/-- What is read as one of the other variants is a spelling if all that it carries is read from one. -/
theorem spells_of_one {α : Type} {f : α → Object} {reads : Datum → Option α} {tag : String} {payload : Option Datum}
    (spells : ∀ {inner : Datum} {a : α}, reads inner = some a → Spells (.tagged tag inner) (f a))
    (variant : d.variant? = some (tag, payload)) (carried : Payload.one f reads payload = some o) : Spells d o := by
  cases payload with
  | none => cases carried
  | some inner =>
    obtain rfl := eq_tagged_of_variant? variant
    obtain ⟨a, ha, rfl⟩ := Option.map_eq_some_iff.1 carried
    exact spells ha

/-- What is read is a spelling. The rows of the table of tags are gone through one by one. -/
theorem spells_of_read {n : Nat} (h : read n d = some o) : Spells d o := by
  induction n generalizing d o with
  | zero => cases h
  | succ n ih =>
    obtain ⟨tag, payload, reader, variant, row, h⟩ := oneOf?_eq_some h
    have bools (tags : tag = "Bool" ∨ tag = "bool") {i : Datum} {b : Bool} (hi : bool? i = some b) :
        Spells (.tagged tag i) (.bool b) :=
      eq_bool_of_bool? hi ▸ .bool tags b
    have ints (tags : tag = "Int" ∨ tag = "int") {i : Datum} {k : Integer} (hi : integer? i = some k) :
        Spells (.tagged tag i) (.int k) :=
      eq_int_of_integer? hi ▸ .int tags k
    have strings (tags : tag = "String" ∨ tag = "str") {i : Datum} {s : String} (hi : text? i = some s) :
        Spells (.tagged tag i) (.string s) :=
      eq_text_of_text? hi ▸ .string tags s
    have lists (tags : tag = "List" ∨ tag = "list") {i : Datum} {os : List Object}
        (hi : i.list? (read n) = some os) : Spells (.tagged tag i) (.list os) := by
      obtain ⟨ds, rfl, hds⟩ := list?_eq_some hi
      exact .list tags (spellsAll_of_mapM ih hds)
    have tuples (tags : tag = "Tuple" ∨ tag = "tuple") {i : Datum} {os : List Object}
        (hi : i.list? (read n) = some os) : Spells (.tagged tag i) (.tuple os) := by
      obtain ⟨ds, rfl, hds⟩ := list?_eq_some hi
      exact .tuple tags (spellsAll_of_mapM ih hds)
    have dicts (tags : tag = "Dict" ∨ tag = "dict") {i : Datum} {ps : List (Object × Object)}
        (hi : i.list? (pair? (read n) (read n)) = some ps) : Spells (.tagged tag i) (.dict ps) := by
      obtain ⟨ds, rfl, hds⟩ := list?_eq_some hi
      exact .dict tags (spellsPairs_of_mapM ih hds)
    have structs (tags : tag = "Struct" ∨ tag = "struct") {i : Datum} {fs : List (String × Object)}
        (hi : i.list? (pair? text? (read n)) = some fs) : Spells (.tagged tag i) (.struct fs) := by
      obtain ⟨ds, rfl, hds⟩ := list?_eq_some hi
      exact .struct tags (spellsFields_of_mapM ih hds)
    simp only [List.mem_cons, Prod.mk.injEq, List.not_mem_nil, or_false] at row
    rcases row with ⟨rfl, rfl⟩ | ⟨rfl, rfl⟩ | ⟨rfl, rfl⟩ | ⟨rfl, rfl⟩ | ⟨rfl, rfl⟩ | ⟨rfl, rfl⟩ | ⟨rfl, rfl⟩ |
      ⟨rfl, rfl⟩ | ⟨rfl, rfl⟩ | ⟨rfl, rfl⟩ | ⟨rfl, rfl⟩ | ⟨rfl, rfl⟩ | ⟨rfl, rfl⟩ | ⟨rfl, rfl⟩ | ⟨rfl, rfl⟩ |
      ⟨rfl, rfl⟩ | ⟨rfl, rfl⟩ | ⟨rfl, rfl⟩ | ⟨rfl, rfl⟩
    · exact spells_of_unit (.inl rfl) variant h
    · exact spells_of_unit (.inr (.inl rfl)) variant h
    · exact spells_of_unit (.inr (.inr rfl)) variant h
    · exact spells_of_one (bools (.inl rfl)) variant h
    · exact spells_of_one (bools (.inr rfl)) variant h
    · exact spells_of_one (ints (.inl rfl)) variant h
    · exact spells_of_one (ints (.inr rfl)) variant h
    · exact spells_of_one (strings (.inl rfl)) variant h
    · exact spells_of_one (strings (.inr rfl)) variant h
    · exact spells_of_one (lists (.inl rfl)) variant h
    · exact spells_of_one (lists (.inr rfl)) variant h
    · exact spells_of_one (tuples (.inl rfl)) variant h
    · exact spells_of_one (tuples (.inr rfl)) variant h
    · exact spells_of_one (dicts (.inl rfl)) variant h
    · exact spells_of_one (dicts (.inr rfl)) variant h
    · exact spells_of_one (structs (.inl rfl)) variant h
    · exact spells_of_one (structs (.inr rfl)) variant h
    · exact spells_of_one (fun {_ s} hi => eq_text_of_text? hi ▸ .described s) variant h
    · exact spells_of_one (fun {_ s} hi => eq_text_of_text? hi ▸ .cycle s) variant h

/-- The reader accepts the spellings of an object and nothing else. -/
theorem ofDatum?_eq_some_iff : ofDatum? d = some o ↔ Spells d o :=
  ⟨spells_of_read, fun h => h.read_eq _ (Nat.le_refl _)⟩

/-! ### One spelling is written -/

mutual

/-- What is written is a spelling that uses main tags only. -/
theorem spells_toDatum : (o : Object) → Spells o.toDatum o
  | .none => .none (.inl rfl)
  | .bool b => .bool (.inl rfl) b
  | .int n => .int (.inl rfl) n
  | .string s => .string (.inl rfl) s
  | .list items => .list (.inl rfl) (spellsAll_itemsToData items)
  | .tuple items => .tuple (.inl rfl) (spellsAll_itemsToData items)
  | .dict pairs => .dict (.inl rfl) (spellsPairs_pairsToData pairs)
  | .struct fields => .struct (.inl rfl) (spellsFields_fieldsToData fields)
  | .described s => .described s
  | .cycle s => .cycle s

theorem spellsAll_itemsToData : (os : List Object) → SpellsAll (itemsToData os) os
  | [] => .nil
  | o :: os => .cons (spells_toDatum o) (spellsAll_itemsToData os)

theorem spellsPairs_pairsToData : (ps : List (Object × Object)) → SpellsPairs (pairsToData ps) ps
  | [] => .nil
  | (k, v) :: ps => .cons (spells_toDatum k) (spells_toDatum v) (spellsPairs_pairsToData ps)

theorem spellsFields_fieldsToData : (fs : List (String × Object)) → SpellsFields (fieldsToData fs) fs
  | [] => .nil
  | (x, v) :: fs => .cons x (spells_toDatum v) (spellsFields_fieldsToData fs)

end

/-- An object is read back from what is written of it. -/
theorem ofDatum?_toDatum (o : Object) : ofDatum? o.toDatum = some o :=
  ofDatum?_eq_some_iff.2 o.spells_toDatum

/-- The tagged form of an object in which every variant has its main tag. -/
inductive Plain : Datum → Prop where
  | none : Plain (.text "None")
  | bool (b : Bool) : Plain (.tagged "Bool" (.bool b))
  | int (n : Int) : Plain (.tagged "Int" (.int n))
  | string (s : String) : Plain (.tagged "String" (.text s))
  | list {ds : List Datum} (items : ∀ d ∈ ds, Plain d) : Plain (.tagged "List" (.list ds))
  | tuple {ds : List Datum} (items : ∀ d ∈ ds, Plain d) : Plain (.tagged "Tuple" (.list ds))
  | dict {es : List (Datum × Datum)} (keys : ∀ e ∈ es, Plain e.1) (values : ∀ e ∈ es, Plain e.2) :
    Plain (.tagged "Dict" (.list (es.map fun e => .list [e.1, e.2])))
  | struct {fs : List (String × Datum)} (values : ∀ f ∈ fs, Plain f.2) :
    Plain (.tagged "Struct" (.list (fs.map fun f => .list [.text f.1, f.2])))
  | described (s : String) : Plain (.tagged "Repr" (.text s))
  | cycle (s : String) : Plain (.tagged "Cycle" (.text s))

theorem pairsToData_eq (ps : List (Object × Object)) :
    pairsToData ps = (ps.map fun p => (p.1.toDatum, p.2.toDatum)).map fun e => .list [e.1, e.2] := by
  induction ps with
  | nil => rfl
  | cons p ps ih => simp [pairsToData, ih]

theorem fieldsToData_eq (fs : List (String × Object)) :
    fieldsToData fs = (fs.map fun f => (f.1, f.2.toDatum)).map fun f => .list [.text f.1, f.2] := by
  induction fs with
  | nil => rfl
  | cons f fs ih => simp [fieldsToData, ih]

mutual

theorem plain_toDatum : (o : Object) → Plain o.toDatum
  | .none => .none
  | .bool b => .bool b
  | .int n => .int n.toInt
  | .string s => .string s
  | .list items => .list (plain_items items)
  | .tuple items => .tuple (plain_items items)
  | .dict pairs => by
    rw [toDatum, pairsToData_eq]
    refine .dict ?_ ?_ <;> rw [List.forall_mem_map]
    · exact fun p hp => (plain_pairs pairs p hp).1
    · exact fun p hp => (plain_pairs pairs p hp).2
  | .struct fields => by
    rw [toDatum, fieldsToData_eq]
    refine .struct ?_
    rw [List.forall_mem_map]
    exact plain_fields fields
  | .described s => .described s
  | .cycle s => .cycle s

theorem plain_items : (os : List Object) → ∀ d ∈ itemsToData os, Plain d
  | [], d, hd => by cases hd
  | o :: os, d, hd => by
    obtain rfl | hd := List.mem_cons.1 hd
    · exact plain_toDatum o
    · exact plain_items os d hd

theorem plain_pairs : (ps : List (Object × Object)) → ∀ p ∈ ps, Plain p.1.toDatum ∧ Plain p.2.toDatum
  | [], p, hp => by cases hp
  | (k, v) :: ps, p, hp => by
    obtain rfl | hp := List.mem_cons.1 hp
    · exact ⟨plain_toDatum k, plain_toDatum v⟩
    · exact plain_pairs ps p hp

theorem plain_fields : (fs : List (String × Object)) → ∀ f ∈ fs, Plain f.2.toDatum
  | [], f, hf => by cases hf
  | (x, v) :: fs, f, hf => by
    obtain rfl | hf := List.mem_cons.1 hf
    · exact plain_toDatum v
    · exact plain_fields fs f hf

end

end Object

end Scriptlet
