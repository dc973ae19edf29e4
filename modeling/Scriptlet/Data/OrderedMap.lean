import Std.Data.ExtTreeMap

/-!
# Insertion-ordered maps

A finite map that remembers the order in which its keys came in. Giving a present key a new value keeps
its place; a new key goes last. Dictionaries, struct fields, the variables of a call and the globals of a
module are all such maps.

The entries stand in an array, in their order, and a search tree gives the place of each key. The list of
entries says all there is to say about a map: `ext` holds, `find?_eq` reads a value off the list and
`entries_insert` says what insertion does to it.
-/

namespace Scriptlet

/-- A finite map from `κ` to `α`, in the order in which the keys were first inserted. -/
structure OrderedMap (κ α : Type) [Ord κ] [Std.TransOrd κ] where
  /-- The entries, oldest key first. -/
  slots : Array (κ × α)
  /-- The place of each key. -/
  places : Std.ExtTreeMap κ Nat
  /-- The places are those of the entries, so no key occurs twice. -/
  places_iff : ∀ (k : κ) (i : Nat), places[k]? = some i ↔ slots[i]?.map Prod.fst = some k

namespace OrderedMap

section

variable {κ α : Type} [Ord κ] [Std.TransOrd κ]

/-- The map without entries. -/
def empty : OrderedMap κ α where
  slots := #[]
  places := ∅
  places_iff := by simp

instance : Inhabited (OrderedMap κ α) := ⟨empty⟩

/-- The entries, oldest key first. -/
def entries (m : OrderedMap κ α) : List (κ × α) := m.slots.toList

/-- The keys, oldest first. -/
def keys (m : OrderedMap κ α) : List κ := m.entries.map Prod.fst

/-- The values, in the order of their keys. -/
def values (m : OrderedMap κ α) : List α := m.entries.map Prod.snd

/-- The number of keys. -/
def size (m : OrderedMap κ α) : Nat := m.slots.size

/-- The value of a key. -/
def find? (m : OrderedMap κ α) (k : κ) : Option α :=
  match m.places[k]? with
  | some i => m.slots[i]?.map Prod.snd
  | none => none

/-- Whether a key is bound. -/
def contains (m : OrderedMap κ α) (k : κ) : Bool := (m.find? k).isSome

@[simp]
theorem entries_empty : (empty : OrderedMap κ α).entries = [] := rfl

theorem length_entries (m : OrderedMap κ α) : m.entries.length = m.size := by
  simp [entries, size]

theorem places_eq_some_iff (m : OrderedMap κ α) {k : κ} {i : Nat} :
    m.places[k]? = some i ↔ m.entries[i]?.map Prod.fst = some k := by
  simp [m.places_iff, entries]

theorem nodup_keys (m : OrderedMap κ α) : m.keys.Nodup := by
  rw [List.Nodup, List.pairwise_iff_getElem]
  intro i j hi hj hij heq
  have hk (n : Nat) (hn : n < m.keys.length) : m.places[m.keys[n]]? = some n := by
    rw [places_eq_some_iff, ← List.getElem?_map]
    exact List.getElem?_eq_getElem hn
  have := (hk i hi).symm.trans (heq ▸ hk j hj)
  simp at this
  omega

@[simp]
theorem find?_empty (k : κ) : (empty : OrderedMap κ α).find? k = none := by
  simp [find?, empty]

theorem find?_eq [DecidableEq κ] (m : OrderedMap κ α) (k : κ) :
    m.find? k = (m.entries.find? fun e => e.1 = k).map Prod.snd := by
  unfold find?
  split
  · rename_i i hi
    rw [places_eq_some_iff] at hi
    obtain ⟨e, he, rfl⟩ := Option.map_eq_some_iff.1 hi
    have : m.entries.find? (fun f => f.1 = e.1) = some e := by
      obtain ⟨f, hf⟩ := Option.isSome_iff_exists.1
        (List.find?_isSome.2 ⟨e, List.mem_of_getElem? he, by simp⟩ :
          (m.entries.find? fun f => f.1 = e.1).isSome)
      obtain ⟨n, hn⟩ := List.mem_iff_getElem?.1 (List.mem_of_find?_eq_some hf)
      have hfe : f.1 = e.1 := by simpa using List.find?_some hf
      have hin : i = n := Option.some.inj ((m.places_eq_some_iff.2 (by rw [he]; rfl)).symm.trans
        (m.places_eq_some_iff.2 (by rw [hn]; exact congrArg some hfe)))
      subst hin
      rw [hf, ← he, hn]
    have hs : m.slots[i]? = some e := by rw [← he, entries, Array.getElem?_toList]
    rw [this, hs]
  · rename_i hk
    symm
    simp only [Option.map_eq_none_iff, List.find?_eq_none, decide_eq_true_eq]
    intro e he hek
    obtain ⟨i, hi⟩ := List.mem_iff_getElem?.1 he
    have := m.places_eq_some_iff.2 (by rw [hi]; exact congrArg some hek)
    simp [hk] at this

theorem find?_eq_some_iff (m : OrderedMap κ α) {k : κ} {a : α} : m.find? k = some a ↔ (k, a) ∈ m.entries := by
  unfold find?
  constructor
  · intro found
    split at found
    · rename_i i hi
      obtain ⟨e, he, rfl⟩ := Option.map_eq_some_iff.1 found
      obtain ⟨f, hf, rfl⟩ := Option.map_eq_some_iff.1 ((m.places_iff k i).1 hi)
      obtain rfl := Option.some.inj (he.symm.trans hf)
      exact Array.mem_toList_iff.2 (Array.mem_of_getElem? he)
    · cases found
  · intro mem
    obtain ⟨i, hi⟩ := List.mem_iff_getElem?.1 mem
    rw [m.places_eq_some_iff.2 (congrArg (Option.map Prod.fst) hi)]
    rw [entries, Array.getElem?_toList] at hi
    exact congrArg (Option.map Prod.snd) hi

end

/-! ## Insertion into a list of entries -/

section

variable {κ α : Type} [DecidableEq κ]

/-- Binds `k` to `a`: in its place if the key is there, at the end otherwise. -/
def put (k : κ) (a : α) : List (κ × α) → List (κ × α)
  | [] => [(k, a)]
  | e :: rest => if e.1 = k then (k, a) :: rest else e :: put k a rest

theorem map_fst_put (k : κ) (a : α) (es : List (κ × α)) :
    (put k a es).map Prod.fst =
      if k ∈ es.map Prod.fst then es.map Prod.fst else es.map Prod.fst ++ [k] := by
  induction es with
  | nil => simp [put]
  | cons e rest ih =>
    by_cases h : e.1 = k
    · simp [put, h]
    · have h' : k ≠ e.1 := fun hk => h hk.symm
      simp only [put, h, if_false, List.map_cons, ih, List.mem_cons, h', false_or]
      split <;> simp

theorem put_of_not_mem {k : κ} (a : α) {es : List (κ × α)} (h : k ∉ es.map Prod.fst) : put k a es = es ++ [(k, a)] := by
  induction es with
  | nil => rfl
  | cons e rest ih =>
    simp only [List.map_cons, List.mem_cons, not_or] at h
    have hk : e.1 ≠ k := fun he => h.1 he.symm
    simp [put, hk, ih h.2]

theorem put_of_getElem? {k : κ} (a : α) {es : List (κ × α)} (hn : (es.map Prod.fst).Nodup) {i : Nat}
    (h : es[i]?.map Prod.fst = some k) : put k a es = es.set i (k, a) := by
  induction es generalizing i with
  | nil => simp at h
  | cons e rest ih =>
    simp only [List.map_cons, List.nodup_cons] at hn
    cases i with
    | zero => simp_all [put]
    | succ i =>
      simp only [List.getElem?_cons_succ] at h
      have hk : e.1 ≠ k := by
        rintro rfl
        exact hn.1 (List.mem_of_getElem? (by simpa [List.getElem?_map] using h))
      simp [put, hk, ih hn.2 h]

theorem find?_put (k : κ) (a : α) (es : List (κ × α)) (j : κ) :
    ((put k a es).find? fun e => e.1 = j).map Prod.snd =
      if j = k then some a else (es.find? fun e => e.1 = j).map Prod.snd := by
  induction es with
  | nil => by_cases h : j = k <;> simp [put, h, eq_comm]
  | cons e rest ih =>
    by_cases he : e.1 = k
    · by_cases h : j = k
      · simp [put, he, h]
      · have h1 : ¬ k = j := fun hk => h hk.symm
        simp [put, he, h, h1]
    · by_cases hj : e.1 = j
      · have h : ¬ j = k := fun hk => he (hj.trans hk)
        simp [put, hj, h]
      · simp only [put, he, if_false, List.find?_cons, hj, decide_false]
        exact ih

end

/-! ## Insertion -/

section

variable {κ α : Type} [Ord κ] [Std.TransOrd κ]

/-- The places of the keys after the value at a place has changed. -/
theorem places_iff_set {slots : Array (κ × α)} {places : Std.ExtTreeMap κ Nat}
    (h : ∀ (k : κ) (i : Nat), places[k]? = some i ↔ slots[i]?.map Prod.fst = some k) {k : κ} {i : Nat}
    (hk : places[k]? = some i) (a : α) (j : κ) (n : Nat) :
    places[j]? = some n ↔ (slots.setIfInBounds i (k, a))[n]?.map Prod.fst = some j := by
  have hi := (h k i).1 hk
  rw [h j n, Array.getElem?_setIfInBounds]
  split
  · rename_i hin
    subst hin
    obtain ⟨e, he, rfl⟩ := Option.map_eq_some_iff.1 hi
    have hlt : i < slots.size := (Array.getElem?_eq_some_iff.1 he).1
    rw [he, if_pos hlt]
    rfl
  · rfl

variable [Std.LawfulEqOrd κ]

/-- The places of the keys after a new key has come last. -/
theorem places_iff_push {slots : Array (κ × α)} {places : Std.ExtTreeMap κ Nat}
    (h : ∀ (k : κ) (i : Nat), places[k]? = some i ↔ slots[i]?.map Prod.fst = some k) {k : κ}
    (hk : places[k]? = none) (a : α) (j : κ) (n : Nat) :
    (places.insert k slots.size)[j]? = some n ↔ (slots.push (k, a))[n]?.map Prod.fst = some j := by
  rw [Std.ExtTreeMap.getElem?_insert, Array.getElem?_push]
  by_cases hj : k = j
  · subst hj
    by_cases hn : n = slots.size
    · simp [hn]
    · have : slots[n]?.map Prod.fst ≠ some k := fun hs => by simp [(h k n).2 hs] at hk
      simpa [hn, eq_comm] using this
  · by_cases hn : n = slots.size
    · have : places[j]? ≠ some slots.size := fun hs => by simp [h j slots.size] at hs
      simp [hn, hj, this]
    · simp [hn, hj, h j n]

/-- Binds `k` to `a`: in its place if the key is there, at the end otherwise. -/
def insert : OrderedMap κ α → κ → α → OrderedMap κ α
  | ⟨slots, places, h⟩, k, a =>
    match hk : places[k]? with
    | some i => ⟨slots.setIfInBounds i (k, a), places, places_iff_set h hk a⟩
    | none =>
      let last := slots.size
      ⟨slots.push (k, a), places.insert k last, places_iff_push h hk a⟩

/-- The map that binds each key of a list to its last value, in the order of first occurrence. -/
def ofList (es : List (κ × α)) : OrderedMap κ α :=
  es.foldl (fun m e => m.insert e.1 e.2) empty

@[ext]
theorem ext {m n : OrderedMap κ α} (h : m.entries = n.entries) : m = n := by
  have hs : m.slots = n.slots := Array.toList_inj.1 h
  have hp : m.places = n.places := Std.ExtTreeMap.ext_getElem? fun k =>
    Option.ext fun i => by rw [m.places_iff, n.places_iff, hs]
  cases m; cases n; cases hs; cases hp; rfl

instance [DecidableEq κ] [DecidableEq α] : DecidableEq (OrderedMap κ α) := fun m n =>
  decidable_of_iff (m.entries = n.entries) ⟨ext, congrArg entries⟩

theorem entries_insert [DecidableEq κ] (m : OrderedMap κ α) (k : κ) (a : α) :
    (m.insert k a).entries = put k a m.entries := by
  have hn := m.nodup_keys
  have hm (i : Nat) := m.places_eq_some_iff (k := k) (i := i)
  obtain ⟨slots, places, h⟩ := m
  rw [insert]
  split
  · rename_i i hk
    rw [put_of_getElem? a hn ((hm i).1 hk)]
    simp [entries]
  · rename_i hk
    rw [put_of_not_mem]
    · simp [entries]
    · intro hmem
      obtain ⟨i, hi⟩ := List.mem_iff_getElem?.1 hmem
      have := (hm i).2 (by rw [← hi, List.getElem?_map])
      simp [hk] at this

theorem keys_insert [DecidableEq κ] (m : OrderedMap κ α) (k : κ) (a : α) :
    (m.insert k a).keys = if k ∈ m.keys then m.keys else m.keys ++ [k] := by
  rw [keys, entries_insert, map_fst_put, keys]

theorem mem_keys_insert [DecidableEq κ] (m : OrderedMap κ α) (k : κ) (a : α) (j : κ) :
    j ∈ (m.insert k a).keys ↔ j = k ∨ j ∈ m.keys := by
  rw [keys_insert]
  split
  · rename_i hk
    exact ⟨.inr, fun h => h.elim (fun h => h ▸ hk) id⟩
  · simp [or_comm]

omit [Std.LawfulEqOrd κ] in
theorem mem_keys_iff [DecidableEq κ] (m : OrderedMap κ α) (k : κ) : k ∈ m.keys ↔ ∃ a, m.find? k = some a := by
  rw [find?_eq, ← Option.isSome_iff_exists, Option.isSome_map, List.find?_isSome]
  simp [keys]

theorem mem_keys_ofList [DecidableEq κ] (es : List (κ × α)) (k : κ) : k ∈ (ofList es).keys ↔ k ∈ es.map Prod.fst := by
  have fold (m : OrderedMap κ α) : k ∈ (es.foldl (fun m e => m.insert e.1 e.2) m).keys ↔
      k ∈ es.map Prod.fst ∨ k ∈ m.keys := by
    induction es generalizing m with
    | nil => simp
    | cons e es ih =>
      rw [List.foldl_cons, ih, mem_keys_insert, List.map_cons, List.mem_cons]
      rw [or_left_comm, or_assoc, or_left_comm]
  exact (fold empty).trans (by simp [keys, entries_empty])

theorem find?_insert [DecidableEq κ] (m : OrderedMap κ α) (k : κ) (a : α) (j : κ) :
    (m.insert k a).find? j = if j = k then some a else m.find? j := by
  rw [find?_eq, entries_insert, find?_put, find?_eq]

end

end OrderedMap

end Scriptlet
