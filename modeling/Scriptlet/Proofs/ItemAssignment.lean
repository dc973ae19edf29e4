import Scriptlet.Proofs.DictLookup
import Scriptlet.Proofs.PassedStores

/-!
# Item assignment

An assignment to an item of a container is an update of one place. What is read there afterwards is the value that was
assigned, however the place is named; all other places, the order of a dictionary and all other objects stay as they
were. An assignment that fails changes nothing.
-/

namespace Scriptlet

open Budget (Meter)
open Heap (Cell Edit)

/-! ## Positions -/

/-- An integer means a position of a sequence: it counts from the front or, if it is negative, from the end. -/
def Integer.Means (n : Integer) (length position : Nat) : Prop :=
  position < length ∧ (n.toInt = position ∨ n.toInt = position - length)

theorem Integer.Means.unique {n : Integer} {length p q : Nat} (first : n.Means length p) (second : n.Means length q) :
    p = q := by
  unfold Means at first second
  omega

namespace Value

theorem position?_eq_some_iff {n : Integer} {length : Nat} {p : Fin length} :
    position? n length = some p ↔ n.Means length p := by
  have inside := p.isLt
  simp only [position?, Integer.Means]
  by_cases negative : n.toInt < 0
  · simp only [negative, if_true, Option.dite_none_right_eq_some, Option.some.injEq, Fin.ext_iff]
    constructor
    · rintro ⟨range, same⟩
      omega
    · intro means
      exact ⟨by omega, by omega⟩
  · simp only [negative, if_false, Option.dite_none_right_eq_some, Option.some.injEq, Fin.ext_iff]
    constructor
    · rintro ⟨range, same⟩
      omega
    · intro means
      exact ⟨by omega, by omega⟩

theorem position?_eq_none_iff {n : Integer} {length : Nat} :
    position? n length = Option.none ↔ ∀ p, ¬ n.Means length p := by
  constructor
  · intro nowhere p means
    have found : position? n length = some ⟨p, means.1⟩ := position?_eq_some_iff.2 means
    cases nowhere.symm.trans found
  · intro nowhere
    cases found : position? n length with
    | none => rfl
    | some p => exact absurd (position?_eq_some_iff.1 found) (nowhere p)

section

variable {type : ValueType} {items : Array Value} {n : Integer}

theorem itemAt_of_means {p : Nat} {u : Value} (means : n.Means items.size p) (there : items[p]? = some u) :
    itemAt type items n = .ok u := by
  have found : position? n items.size = some ⟨p, means.1⟩ := position?_eq_some_iff.2 means
  rw [Array.getElem?_eq_getElem means.1, Option.some.injEq] at there
  simp only [itemAt, found]
  exact congrArg Except.ok there

theorem itemAt_of_out (out : ∀ p, ¬ n.Means items.size p) :
    itemAt type items n = raise (.indexOutOfRange type n items.size) := by
  simp only [itemAt, position?_eq_none_iff.2 out]

/-- After an item has been replaced, its position reads as the new item and all others as before. -/
theorem itemAt_setIfInBounds (type : ValueType) {p : Nat} (inside : p < items.size) (v : Value) :
    (n.Means items.size p → itemAt type (items.setIfInBounds p v) n = .ok v) ∧
    (¬ n.Means items.size p → itemAt type (items.setIfInBounds p v) n = itemAt type items n) := by
  have size : (items.setIfInBounds p v).size = items.size := Array.size_setIfInBounds
  constructor
  · intro means
    refine itemAt_of_means (p := p) (by rwa [size]) ?_
    rw [Array.getElem?_setIfInBounds_self_of_lt inside]
  · intro other
    by_cases somewhere : ∃ q, n.Means items.size q
    · obtain ⟨q, means⟩ := somewhere
      have differ : p ≠ q := by
        rintro rfl
        exact other means
      obtain ⟨u, there⟩ : ∃ u, items[q]? = some u := ⟨_, Array.getElem?_eq_getElem means.1⟩
      rw [itemAt_of_means means there]
      refine itemAt_of_means (p := q) (by rwa [size]) ?_
      rw [Array.getElem?_setIfInBounds_ne differ, there]
    · rw [not_exists] at somewhere
      rw [itemAt_of_out (by rwa [size]), itemAt_of_out somewhere, size]

end

end Value

/-! ## Looking at values after a change in place -/

namespace Heap

variable {h : Heap} {a b : Address} {c : Cell}

theorem cell?_edit (found : h.cell? a = some c) (e : Edit) : (h.edit a e).cell? a = some (e.apply c) := by
  rw [edit, cell?_update, if_pos rfl, found, Option.map_some]

theorem cell?_edit_of_ne (e : Edit) (other : b ≠ a) : (h.edit a e).cell? b = h.cell? b := by
  rw [edit, cell?_update, if_neg other.symm]

theorem Cell.type_eq_of_kind {d : Cell} (same : c.kind = d.kind) : c.type = d.type := by
  cases c <;> cases d <;> first | rfl | cases same

theorem read_edit (found : h.cell? a = some c) (e : Edit) : (h.edit a e).read a = .ok (e.apply c) :=
  read_of_cell? (cell?_edit found e)

theorem read_edit_of_ne (e : Edit) (other : b ≠ a) : (h.edit a e).read b = h.read b := by
  rw [read, cell?_edit_of_ne e other, read]

end Heap

namespace Value

variable {h : Heap} {a : Address} {c : Cell} {n : Nat}

theorem type_edit (found : h.cell? a = some c) (e : Edit) (v : Value) : v.type (h.edit a e) = v.type h := by
  cases v with
  | ref b =>
    by_cases here : b = a
    · subst here
      simp only [type, Heap.read_edit found, Heap.read_of_cell? found]
      exact congrArg Except.ok (Cell.type_eq_of_kind (e.kind_apply c))
    · simp only [type, Heap.read_edit_of_ne e here]
  | _ => rfl

theorem keyWithin_of_not_isKeyPart (found : h.cell? a = some c) (mutable : c.isKeyPart = false) :
    (ref a).keyWithin h (n + 1) = raise (.unhashable c.type) := by
  simp only [keyWithin, Heap.read_of_cell? found]
  cases c with
  | text s => cases mutable
  | tuple items => cases mutable
  | _ => rfl

/-- A change of a list or a dictionary gives no value a key, takes none from it and leaves it the one it has. -/
theorem keyWithin_edit (found : h.cell? a = some c) (mutable : c.isKeyPart = false) (e : Edit) (n : Nat) (v : Value) :
    v.keyWithin (h.edit a e) n = v.keyWithin h n := by
  have kept : (e.apply c).isKeyPart = false := by
    cases e <;> cases c <;> exact mutable
  induction n generalizing v with
  | zero => rfl
  | succ n ih =>
    cases v with
    | ref b =>
      by_cases here : b = a
      · subst here
        rw [keyWithin_of_not_isKeyPart (Heap.cell?_edit found e) kept, keyWithin_of_not_isKeyPart found mutable,
          Cell.type_eq_of_kind (e.kind_apply c)]
      · simp only [keyWithin, Heap.read_edit_of_ne e here, funext ih]
    | _ => rfl

theorem key_edit (found : h.cell? a = some c) (mutable : c.isKeyPart = false) (e : Edit) (v : Value) :
    v.key (h.edit a e) = v.key h :=
  keyWithin_edit found mutable e _ v

theorem asIndex_edit (found : h.cell? a = some c) (e : Edit) (v : Value) : v.asIndex (h.edit a e) = v.asIndex h := by
  cases v with
  | int n => rfl
  | _ => simp only [asIndex, type_edit found]

/-! ## Reading items -/

theorem item_list {items : Array Value} {frozen : Bool} (found : h.cell? a = some (.list items frozen)) (j : Value) :
    (ref a).item h j = j.asIndex h >>= itemAt .list items := by
  simp only [item, Heap.read_of_cell? found]
  rfl

theorem item_dict_of_error {entries : OrderedMap Key (Value × Value)} {frozen : Bool} {j : Value} {f : Flaw}
    (found : h.cell? a = some (.dict entries frozen)) (unhashed : j.key h = .error f) :
    (ref a).item h j = .error f := by
  simp only [item, Heap.read_of_cell? found, unhashed]
  rfl

theorem items_dict {entries : OrderedMap Key (Value × Value)} {frozen : Bool}
    (found : h.cell? a = some (.dict entries frozen)) : (ref a).items h = .ok (entries.entries.map fun e => e.2.1) := by
  simp only [Value.items, Heap.read_of_cell? found, OrderedMap.values]
  exact congrArg Except.ok List.map_map

end Value

/-! ## What an assignment does -/

namespace Value

variable {h : Heap} {a : Address} {c : Cell} {e : Edit}

theorem setItem_of_edit {i v : Value} (found : h.cell? a = some c) (made : itemEdit h c i v = .ok e) :
    (ref a).setItem i v h = .ok () (h.edit a e) := by
  have looked : (do itemEdit h (← h.read a) i v : Attempt Edit) = .ok e :=
    Attempt.bind_eq_ok.2 ⟨c, Heap.read_of_cell? found, made⟩
  have seen : Heap.inspect (fun h => do itemEdit h (← h.read a) i v) h = .ok e h := by
    simp only [Heap.inspect, looked]
  exact bind_of_ok seen

/-- An assignment fails and changes nothing, or it makes one change in place. -/
theorem setItem_cases (h : Heap) (container i v : Value) :
    (∃ f, container.setItem i v h = .error f h) ∨
    ∃ a c e, container = .ref a ∧ h.cell? a = some c ∧ itemEdit h c i v = .ok e ∧
      container.setItem i v h = .ok () (h.edit a e) := by
  cases container with
  | ref a =>
    cases looked : (do itemEdit h (← h.read a) i v : Attempt Edit) with
    | error f =>
      refine .inl ⟨f.failure, bind_of_error ?_⟩
      simp only [Heap.inspect, looked]
    | ok e =>
      obtain ⟨c, read, made⟩ := Attempt.bind_eq_ok.1 looked
      have found := Heap.cell?_of_read read
      exact .inr ⟨a, c, e, rfl, found, made, setItem_of_edit found made⟩
  | _ => exact .inl ⟨_, rfl⟩

theorem asIndex_eq_ok_iff {i : Value} {n : Integer} : i.asIndex h = .ok n ↔ i = .int n := by
  cases i with
  | int m => simp only [asIndex, Except.ok.injEq, Value.int.injEq]
  | _ =>
    refine ⟨fun ran => ?_, fun same => by cases same⟩
    obtain ⟨type, -, made⟩ := Attempt.bind_eq_ok.1 ran
    cases made

/-- The assignments that succeed: to a position of a list, or to a key of a dictionary, that is not frozen. -/
theorem itemEdit_eq_ok_iff {i v : Value} : itemEdit h c i v = .ok e ↔
    (∃ items n p, c = .list items false ∧ i = .int n ∧ n.Means items.size p ∧ e = .setItem p v) ∨
    ∃ entries key, c = .dict entries false ∧ i.key h = .ok key ∧ e = .setEntry key i v := by
  constructor
  · intro made
    cases c with
    | list items frozen =>
      obtain ⟨n, index, made⟩ := Attempt.bind_eq_ok.1 made
      rw [asIndex_eq_ok_iff] at index
      cases found : position? n items.size with
      | none =>
        simp only [found] at made
        cases made
      | some p =>
        simp only [found] at made
        cases frozen with
        | true => cases made
        | false =>
          cases made
          exact .inl ⟨items, n, p, rfl, index, position?_eq_some_iff.1 found, rfl⟩
    | dict entries frozen =>
      obtain ⟨key, hashed, made⟩ := Attempt.bind_eq_ok.1 made
      cases frozen with
      | true => cases made
      | false =>
        cases made
        exact .inr ⟨entries, key, rfl, hashed, rfl⟩
    | _ => cases made
  · rintro (⟨items, n, p, rfl, rfl, means, rfl⟩ | ⟨entries, key, rfl, hashed, rfl⟩)
    · have found : position? n items.size = some ⟨p, means.1⟩ := position?_eq_some_iff.2 means
      refine Attempt.bind_eq_ok.2 ⟨n, rfl, ?_⟩
      simp only [found]
      rfl
    · simp only [itemEdit, hashed]
      rfl

end Value

/-- Two indices mean the same place of a container: the same position of a list, counted from the front or from the end,
or equal keys of a dictionary. -/
inductive Heap.SamePlace (h : Heap) : Cell → Value → Value → Prop where
  | position {items : Array Value} {frozen : Bool} {m n : Integer} {p : Nat} (first : m.Means items.size p)
      (second : n.Means items.size p) : SamePlace h (.list items frozen) (.int m) (.int n)
  | key {entries : OrderedMap Key (Value × Value)} {frozen : Bool} {i j : Value} {key other : Key}
      (first : i.key h = .ok key) (second : j.key h = .ok other) (equal : i.equal h j = .ok true) :
      SamePlace h (.dict entries frozen) i j

/-- A value has been assigned to one place of a container, which had been there before. -/
structure Heap.Assigned (h : Heap) (a : Address) (c : Cell) (i v : Value) (h' : Heap) : Prop where
  /-- The value is read at the place, however it is named. -/
  same : ∀ j, h.SamePlace c i j → (Value.ref a).item h' j = .ok v
  /-- All other indices give what they gave before, be it a value or an error. -/
  other : ∀ j, ¬ h.SamePlace c i j → (Value.ref a).item h' j = (Value.ref a).item h j
  /-- A list stays as long as it was. -/
  list : ∀ items frozen, c = .list items frozen →
    ∃ items', h'.cell? a = some (.list items' frozen) ∧ items'.size = items.size
  /-- A loop over a dictionary meets the index in the place of the one that is equal, or else last. -/
  dict : ∀ entries frozen, c = .dict entries frozen →
    (∃ entries', h'.cell? a = some (.dict entries' frozen)) ∧
    ∃ before, (Value.ref a).items h = .ok before ∧
      ((∃ n u, before[n]? = some u ∧ u.equal h i = .ok true ∧ (Value.ref a).items h' = .ok (before.set n i)) ∨
        (∀ u ∈ before, u.equal h i = .ok false) ∧ (Value.ref a).items h' = .ok (before ++ [i]))
  /-- All other objects stay as they were. -/
  cells : ∀ b, b ≠ a → h'.cell? b = h.cell? b
  size : h'.slots.size = h.slots.size
  free : h'.free = h.free
  meter : h'.meter = h.meter
  sinceCollection : h'.sinceCollection = h.sinceCollection

namespace Heap

variable {h : Heap} {a : Address} {i j v : Value}

section

variable {items : Array Value} {frozen : Bool} {n : Integer} {p : Nat}

theorem samePlace_list_iff (means : n.Means items.size p) :
    h.SamePlace (.list items frozen) (.int n) j ↔ ∃ m : Integer, j = .int m ∧ m.Means items.size p := by
  constructor
  · intro same
    cases same with
    | position first second =>
      obtain rfl := means.unique first
      exact ⟨_, rfl, second⟩
  · rintro ⟨m, rfl, second⟩
    exact .position means second

theorem assigned_list (found : h.cell? a = some (.list items false)) (means : n.Means items.size p) (v : Value) :
    h.Assigned a (.list items false) (.int n) v (h.edit a (.setItem p v)) := by
  have after : (h.edit a (.setItem p v)).cell? a = some (.list (items.setIfInBounds p v) false) := cell?_edit found _
  have read (m : Integer) := Value.itemAt_setIfInBounds (n := m) .list means.1 v
  constructor
  case same =>
    intro j place
    obtain ⟨m, rfl, second⟩ := (samePlace_list_iff means).1 place
    rw [Value.item_list after]
    exact (read m).1 second
  case other =>
    intro j place
    rw [Value.item_list after, Value.item_list found, Value.asIndex_edit found]
    cases index : j.asIndex h with
    | error f => rfl
    | ok m =>
      obtain rfl := Value.asIndex_eq_ok_iff.1 index
      refine (read m).2 fun second => place ?_
      exact (samePlace_list_iff means).2 ⟨m, rfl, second⟩
  case list =>
    intro items' frozen list
    cases list
    exact ⟨_, after, Array.size_setIfInBounds⟩
  case dict =>
    intro entries frozen dict
    cases dict
  case cells => exact fun b other => cell?_edit_of_ne _ other
  case size => exact Array.size_modify
  all_goals rfl

end

section

variable {entries : OrderedMap Key (Value × Value)} {frozen : Bool} {key : Key}

theorem samePlace_dict_iff (hashed : i.key h = .ok key) :
    h.SamePlace (.dict entries frozen) i j ↔ j.key h = .ok key := by
  constructor
  · intro same
    cases same with
    | key first second equal =>
      obtain rfl := Except.ok.inj (hashed.symm.trans first)
      rw [Value.equal_of_keys first second, Except.ok.injEq, decide_eq_true_iff] at equal
      rw [second, equal]
  · intro second
    refine .key hashed second ?_
    rw [Value.equal_of_keys hashed second, decide_eq_true rfl]

/-- What a loop over a dictionary meets after a key has been bound, if the entries are stored under the keys of their
indices. -/
theorem items_of_insert (stored : ∀ e ∈ entries.entries, e.2.1.key h = .ok e.1) (hashed : i.key h = .ok key)
    (v : Value) :
    let before := entries.entries.map fun e => e.2.1
    let after := (entries.insert key (i, v)).entries.map fun e => e.2.1
    (∃ n u, before[n]? = some u ∧ u.equal h i = .ok true ∧ after = before.set n i) ∨
      (∀ u ∈ before, u.equal h i = .ok false) ∧ after = before ++ [i] := by
  intro before after
  have made : after = (OrderedMap.put key (i, v) entries.entries).map fun e => e.2.1 := by
    simp only [after, OrderedMap.entries_insert]
  by_cases bound : key ∈ entries.keys
  · obtain ⟨n, there⟩ := List.mem_iff_getElem?.1 bound
    rw [OrderedMap.keys, List.getElem?_map] at there
    obtain ⟨e, entry, same⟩ := Option.map_eq_some_iff.1 there
    refine .inl ⟨n, e.2.1, ?_, ?_, ?_⟩
    · rw [List.getElem?_map, entry, Option.map_some]
    · rw [Value.equal_of_keys (stored e (List.mem_of_getElem? entry)) hashed, decide_eq_true same]
    · rw [made, OrderedMap.put_of_getElem? _ entries.nodup_keys there, List.map_set]
  · refine .inr ⟨fun u mem => ?_, ?_⟩
    · obtain ⟨e, entry, rfl⟩ := List.mem_map.1 mem
      have differ : e.1 ≠ key := by
        rintro rfl
        exact bound (List.mem_map_of_mem entry)
      rw [Value.equal_of_keys (stored e entry) hashed, decide_eq_false differ]
    · rw [made, OrderedMap.put_of_not_mem _ bound, List.map_append]
      rfl

theorem assigned_dict (stored : ∀ e ∈ entries.entries, e.2.1.key h = .ok e.1)
    (found : h.cell? a = some (.dict entries false)) (hashed : i.key h = .ok key) (v : Value) :
    h.Assigned a (.dict entries false) i v (h.edit a (.setEntry key i v)) := by
  have after : (h.edit a (.setEntry key i v)).cell? a = some (.dict (entries.insert key (i, v)) false) :=
    cell?_edit found _
  have keys (j : Value) : j.key (h.edit a (.setEntry key i v)) = j.key h := Value.key_edit found rfl _ j
  constructor
  case same =>
    intro j place
    have second : j.key h = .ok key := (samePlace_dict_iff hashed).1 place
    rw [item_dict after ((keys j).trans second), OrderedMap.find?_insert, if_pos rfl]
    rfl
  case other =>
    intro j place
    cases second : j.key h with
    | error f => rw [Value.item_dict_of_error after ((keys j).trans second), Value.item_dict_of_error found second]
    | ok key' =>
      have differ : key' ≠ key := by
        rintro rfl
        exact place ((samePlace_dict_iff hashed).2 second)
      rw [item_dict after ((keys j).trans second), item_dict found second, OrderedMap.find?_insert, if_neg differ]
  case list =>
    intro items frozen list
    cases list
  case dict =>
    intro entries' frozen dict
    cases dict
    refine ⟨⟨_, after⟩, _, Value.items_dict found, ?_⟩
    simp only [Value.items_dict after, Except.ok.injEq]
    exact items_of_insert stored hashed v
  case cells => exact fun b other => cell?_edit_of_ne _ other
  case size => exact Array.size_modify
  all_goals rfl

end

end Heap

/-- In every store that a session passes through, for all values: an assignment to an item that fails leaves the whole
heap as it was. One that succeeds is to a place of a list or dictionary that is not frozen, and changes this place alone.
It succeeds for every place of such a container. -/
theorem item_assignment_lawful {name : String} {meter : Meter} {steps : List Step} {l : Library} {s : Store}
    (passes : (Module.create name meter).Passes steps l s) (container i v : Value) :
    (∀ f h', container.setItem i v s.heap = .error f h' → h' = s.heap) ∧
    (∀ h', container.setItem i v s.heap = .ok () h' →
      ∃ a c, container = .ref a ∧ s.heap.cell? a = some c ∧ c.Mutable ∧ s.heap.SamePlace c i i ∧
        s.heap.Assigned a c i v h') ∧
    ∀ a c, container = .ref a → s.heap.cell? a = some c → c.Mutable → s.heap.SamePlace c i i →
      ∃ h', container.setItem i v s.heap = .ok () h' := by
  have keyed := passes.inOrder.keyed
  refine ⟨fun f h' failed => ?_, fun h' ran => ?_, fun a c same found mutable place => ?_⟩
  · rcases Value.setItem_cases s.heap container i v with ⟨f', ran⟩ | ⟨a, c, e, -, -, -, ran⟩
    · cases failed.symm.trans ran
      rfl
    · cases failed.symm.trans ran
  · rcases Value.setItem_cases s.heap container i v with ⟨f, failed⟩ | ⟨a, c, e, same, found, made, done⟩
    · cases ran.symm.trans failed
    · cases ran.symm.trans done
      refine ⟨a, c, same, found, ?_⟩
      rcases Value.itemEdit_eq_ok_iff.1 made with ⟨items, n, p, rfl, rfl, means, rfl⟩ | ⟨entries, key, rfl, hashed, rfl⟩
      · exact ⟨.list items, .position means means, Heap.assigned_list found means v⟩
      · have assigned := Heap.assigned_dict (keyed.cells a _ found) found hashed v
        exact ⟨.dict entries, (Heap.samePlace_dict_iff hashed).2 hashed, assigned⟩
  · have made : ∃ e, Value.itemEdit s.heap c i v = .ok e := by
      cases place with
      | position first _ =>
        cases mutable
        exact ⟨_, Value.itemEdit_eq_ok_iff.2 (.inl ⟨_, _, _, rfl, rfl, first, rfl⟩)⟩
      | key first _ _ =>
        cases mutable
        exact ⟨_, Value.itemEdit_eq_ok_iff.2 (.inr ⟨_, _, rfl, first, rfl⟩)⟩
    obtain ⟨e, made⟩ := made
    subst same
    exact ⟨_, Value.setItem_of_edit found made⟩

/-- An entry is replaced under a key that was put together a second time, and is found under the first one. -/
theorem item_assignment_lawful_tuple :
    let m := ((Module.create "m" (.depthOnly none)).run [.set "x" (.list [.int 1]),
      .set "d" (.dict [(.none, .none), (.tuple [.string "a"], .int 1), (.int 2, .none)]),
      .set "k" (.tuple [.string "a"])]).2
    let d : Value := .ref ⟨3⟩
    ∃ h', d.setItem (.ref ⟨5⟩) (.int 7) m.heap = .ok () h' ∧ d.item h' (.ref ⟨2⟩) = .ok (.int 7) ∧
      d.item h' .none = d.item m.heap .none ∧ d.item m.heap .none = .ok .none ∧ h'.cell? ⟨0⟩ = m.heap.cell? ⟨0⟩ := by
  intro m d
  have passes : (Module.create "m" (.depthOnly none)).Passes _ m.library m.store := .after
  have first : (Value.ref ⟨2⟩).key m.heap = .ok (.tuple [.str "a"]) := by decide +kernel
  have second : (Value.ref ⟨5⟩).key m.heap = .ok (.tuple [.str "a"]) := by decide +kernel
  have equal : (Value.ref ⟨5⟩).equal m.heap (.ref ⟨2⟩) = .ok true := by decide +kernel
  have differ : (Value.ref ⟨5⟩).equal m.heap .none = .ok false := by decide +kernel
  have before : d.item m.heap .none = .ok .none := by decide +kernel
  have runs : (EStateM.run' (d.setItem (.ref ⟨5⟩) (.int 7)) m.heap).isSome := by decide +kernel
  clear_value m
  unfold EStateM.run' EStateM.run at runs
  obtain ⟨-, lawful, -⟩ := item_assignment_lawful passes d (.ref ⟨5⟩) (.int 7)
  cases ran : d.setItem (.ref ⟨5⟩) (.int 7) m.heap with
  | error f h' =>
    rw [ran] at runs
    cases runs
  | ok _ h' =>
    obtain ⟨a, c, same, found, -, place, assigned⟩ := lawful h' ran
    obtain rfl : ⟨3⟩ = a := Value.ref.inj same
    cases place with
    | key =>
      refine ⟨h', rfl, assigned.same _ (.key second first equal), assigned.other _ fun place => ?_, before,
        assigned.cells _ (by decide)⟩
      cases place with
      | key _ _ equal => cases differ.symm.trans equal

end Scriptlet
