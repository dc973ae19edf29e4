import Mathlib.Data.List.Forall2
import Scriptlet.Data.OrderedMap

/-!
# Maps

The map of a list of entries has each key of the list once, with its last value. Two maps match if they bind the same
keys in the same order to related values. Reading and binding a key respects this.
-/

namespace Scriptlet.OrderedMap

variable {κ α β : Type} {es : List (κ × α)}

/-! ## Entries one after another -/

section entries

variable [DecidableEq κ] {es : List (κ × α)}

/-- What is bound in a list of entries afterwards is new or was bound before. -/
theorem eq_or_mem_of_mem_put {k : κ} {a : α} {e : κ × α} (mem : e ∈ put k a es) : e = (k, a) ∨ e ∈ es := by
  induction es with
  | nil => exact .inl (List.mem_singleton.1 mem)
  | cons f rest ih =>
    rw [put] at mem
    split at mem
    · rcases List.mem_cons.1 mem with rfl | mem
      · exact .inl rfl
      · exact .inr (List.mem_cons_of_mem f mem)
    · rcases List.mem_cons.1 mem with rfl | mem
      · exact .inr List.mem_cons_self
      · exact (ih mem).imp_right (List.mem_cons_of_mem f)

/-- The entries with each key once, where it came first and with the value that came last. -/
def lastWins (es : List (κ × α)) : List (κ × α) := es.foldl (fun done e => put e.1 e.2 done) []

theorem mem_of_mem_lastWins {e : κ × α} (mem : e ∈ lastWins es) : e ∈ es := by
  have fold (es done : List (κ × α)) (mem : e ∈ es.foldl (fun done e => put e.1 e.2 done) done) :
      e ∈ es ∨ e ∈ done := by
    induction es generalizing done with
    | nil => exact .inr mem
    | cons f es ih =>
      rcases ih _ mem with mem | mem
      · exact .inl (List.mem_cons_of_mem f mem)
      · rcases eq_or_mem_of_mem_put mem with rfl | mem
        · exact .inl List.mem_cons_self
        · exact .inr mem
  rcases fold es [] mem with mem | mem
  · exact mem
  · cases mem

/-- Entries with different keys are all kept. -/
theorem lastWins_eq_self (nodup : (es.map Prod.fst).Nodup) : lastWins es = es := by
  have fold (es done : List (κ × α)) (nodup : ((done ++ es).map Prod.fst).Nodup) :
      es.foldl (fun done e => put e.1 e.2 done) done = done ++ es := by
    induction es generalizing done with
    | nil => exact (List.append_nil done).symm
    | cons e es ih =>
      have new : e.1 ∉ done.map Prod.fst := by
        rw [List.map_append, List.map_cons, List.nodup_append] at nodup
        exact fun mem => nodup.2.2 _ mem _ List.mem_cons_self rfl
      rw [List.foldl_cons, put_of_not_mem _ new, ih, List.append_assoc]
      · rfl
      · rw [List.append_assoc]
        exact nodup
  exact fold es [] nodup

variable [Ord κ] [Std.TransOrd κ] [Std.LawfulEqOrd κ]

theorem entries_ofList (es : List (κ × α)) : (ofList es).entries = lastWins es := by
  have fold (m : OrderedMap κ α) : (es.foldl (fun m e => m.insert e.1 e.2) m).entries =
      es.foldl (fun done e => put e.1 e.2 done) m.entries := by
    induction es generalizing m with
    | nil => rfl
    | cons e es ih => rw [List.foldl_cons, ih, entries_insert, List.foldl_cons]
  exact fold empty

/-- A key that has only one value in a list of entries has this value in the map of the list. -/
theorem find?_ofList {k : κ} {a : α} (mem : (k, a) ∈ es) (unique : ∀ b, (k, b) ∈ es → b = a) :
    (ofList es).find? k = some a := by
  obtain ⟨b, found⟩ := (mem_keys_iff _ k).1 ((mem_keys_ofList es k).2 (List.mem_map_of_mem mem))
  have bound := (find?_eq_some_iff _).1 found
  rw [entries_ofList] at bound
  rw [found, unique b (mem_of_mem_lastWins bound)]

end entries

/-! ## Matching maps -/

/-- Two entries have the same key and related values. -/
def EntryMatch (R : κ → α → β → Prop) (e : κ × α) (f : κ × β) : Prop := e.1 = f.1 ∧ R e.1 e.2 f.2

/-- Binding related keys to related values keeps entries related, if no other entry of one side has the key of the
other. -/
theorem forall₂_put_of {μ : Type} [DecidableEq κ] [DecidableEq μ] {R : κ × α → μ × β → Prop}
    {fs : List (μ × β)} (h : List.Forall₂ R es fs) {k : κ} {l : μ} {a : α} {b : β}
    (same : ∀ e f, R e f → (e.1 = k ↔ f.1 = l)) (hab : R (k, a) (l, b)) : List.Forall₂ R (put k a es) (put l b fs) := by
  induction h with
  | nil => exact .cons hab .nil
  | @cons e f es fs he h ih =>
    simp only [put, same e f he]
    split
    · exact .cons hab h
    · exact .cons he ih

theorem forall₂_put [DecidableEq κ] {R : κ → α → β → Prop} {fs : List (κ × β)}
    (h : List.Forall₂ (EntryMatch R) es fs) {k : κ} {a : α} {b : β} (hab : R k a b) :
    List.Forall₂ (EntryMatch R) (put k a es) (put k b fs) :=
  forall₂_put_of h (fun e f he => by rw [he.1]) ⟨rfl, hab⟩

theorem rel_find? [DecidableEq κ] {R : κ → α → β → Prop} {fs : List (κ × β)}
    (h : List.Forall₂ (EntryMatch R) es fs) (k : κ) :
    Option.Rel (R k) ((es.find? fun e => e.1 = k).map Prod.snd)
      ((fs.find? fun e => e.1 = k).map Prod.snd) := by
  induction h with
  | nil => exact .none
  | @cons e f es fs he _ ih =>
    simp only [List.find?_cons, ← he.1]
    by_cases hk : e.1 = k
    · simpa [hk] using Option.Rel.some (hk ▸ he.2)
    · simpa [hk] using ih

variable [Ord κ] [Std.TransOrd κ]

/-- Two maps bind the same keys in the same order to related values. -/
def Matches (R : κ → α → β → Prop) (m : OrderedMap κ α) (n : OrderedMap κ β) : Prop :=
  List.Forall₂ (EntryMatch R) m.entries n.entries

namespace Matches

variable {R S : κ → α → β → Prop} {m : OrderedMap κ α} {n : OrderedMap κ β}

theorem empty : Matches R (OrderedMap.empty : OrderedMap κ α) (OrderedMap.empty : OrderedMap κ β) :=
  .nil

theorem imp (hm : Matches R m n) (h : ∀ k a b, R k a b → S k a b) : Matches S m n :=
  List.Forall₂.imp (fun _ _ he => ⟨he.1, h _ _ _ he.2⟩) hm

theorem imp_values (hm : Matches R m n) (h : ∀ k a b, a ∈ m.values → R k a b → S k a b) : Matches S m n := by
  have hv : ∀ e ∈ m.entries, e.2 ∈ m.values := fun e he => List.mem_map_of_mem he
  unfold Matches at hm ⊢
  generalize m.entries = es at hm hv ⊢
  generalize n.entries = fs at hm ⊢
  induction hm with
  | nil => exact .nil
  | cons he _ ih =>
    rw [List.forall_mem_cons] at hv
    exact .cons ⟨he.1, h _ _ _ hv.1 he.2⟩ (ih hv.2)

theorem size_eq (hm : Matches R m n) : m.size = n.size := by
  rw [← length_entries, ← length_entries]
  exact hm.length_eq

theorem keys_eq (hm : Matches R m n) : m.keys = n.keys := by
  have h : List.Forall₂ Eq (m.entries.map Prod.fst) (n.entries.map Prod.fst) := by
    rw [List.forall₂_map_left_iff, List.forall₂_map_right_iff]
    exact List.Forall₂.imp (fun _ _ he => he.1) hm
  rwa [List.forall₂_eq_eq_eq] at h

theorem values (hm : Matches R m n) : List.Forall₂ (fun a b => ∃ k, R k a b) m.values n.values := by
  rw [OrderedMap.values, OrderedMap.values, List.forall₂_map_left_iff, List.forall₂_map_right_iff]
  exact List.Forall₂.imp (fun e _ he => ⟨e.1, he.2⟩) hm

theorem find? [DecidableEq κ] (hm : Matches R m n) (k : κ) : Option.Rel (R k) (m.find? k) (n.find? k) := by
  rw [find?_eq, find?_eq]
  exact rel_find? hm k

theorem contains_eq [DecidableEq κ] (hm : Matches R m n) (k : κ) : m.contains k = n.contains k := by
  have h := hm.find? k
  unfold contains
  generalize m.find? k = x at h ⊢
  generalize n.find? k = y at h ⊢
  cases h <;> rfl

variable [Std.LawfulEqOrd κ] [DecidableEq κ]

theorem insert (hm : Matches R m n) {k : κ} {a : α} {b : β} (hab : R k a b) :
    Matches R (m.insert k a) (n.insert k b) := by
  unfold Matches
  rw [entries_insert, entries_insert]
  exact forall₂_put hm hab

theorem foldl_insert {es : List (κ × α)} {fs : List (κ × β)} (h : List.Forall₂ (EntryMatch R) es fs)
    (hm : Matches R m n) :
    Matches R (es.foldl (fun m e => m.insert e.1 e.2) m)
      (fs.foldl (fun m e => m.insert e.1 e.2) n) := by
  induction h generalizing m n with
  | nil => exact hm
  | @cons e f _ _ he _ ih =>
    refine ih ?_
    show Matches R (m.insert e.1 e.2) (n.insert f.1 f.2)
    exact he.1 ▸ hm.insert he.2

theorem ofList {es : List (κ × α)} {fs : List (κ × β)} (h : List.Forall₂ (EntryMatch R) es fs) :
    Matches R (OrderedMap.ofList es) (OrderedMap.ofList fs) :=
  foldl_insert h empty

end Matches

end Scriptlet.OrderedMap
