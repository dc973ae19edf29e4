import Mathlib.Data.List.Forall2
import Scriptlet.Object.Build
import Scriptlet.Proofs.Data.Maps
import Scriptlet.Proofs.Machine.Steps
import Scriptlet.Proofs.Object.Parts
import Scriptlet.Proofs.Object.Paths

/-!
# Objects built on the heap

A host object that is built on the heap comes back when its value is unfolded: merged, since a dictionary and a struct
keep one entry for each key and each field, and cut where it lies too deep. Nothing that is built later disturbs it,
and as its parts are built before it, no part holds the whole.
-/

namespace Scriptlet

open Heap (Cell Placed)

/-! ## Keys as objects -/

namespace Key

mutual

/-- The object that has a key. -/
def object : Key → Object
  | .none => .none
  | .bool b => .bool b
  | .int n => .int n
  | .str s => .string s
  | .tuple items => .tuple (objects items)

def objects : List Key → List Object
  | [] => []
  | k :: ks => k.object :: objects ks

end

mutual

theorem object_inj : (a b : Key) → (a.object = b.object ↔ a = b)
  | .none, b => by cases b <;> simp [object]
  | .bool _, b => by cases b <;> simp [object]
  | .int _, b => by cases b <;> simp [object]
  | .str _, b => by cases b <;> simp [object]
  | .tuple as, b => by
    cases b with
    | tuple bs => simp [object, objects_inj as bs]
    | _ => simp [object]

theorem objects_inj : (as bs : List Key) → (objects as = objects bs ↔ as = bs)
  | [], bs => by cases bs <;> simp [objects]
  | a :: as, bs => by
    cases bs with
    | nil => simp [objects]
    | cons b bs => simp [objects, object_inj a b, objects_inj as bs]

end

end Key

/-! ## Values that stand for objects -/

/-- The objects of `h` are in `h'` too, unchanged. -/
def Heap.KeptIn (h h' : Heap) : Prop := ∀ a c, h.cell? a = some c → h'.cell? a = some c

theorem Heap.KeptIn.refl (h : Heap) : h.KeptIn h := fun _ _ hc => hc

theorem Heap.KeptIn.trans {h₁ h₂ h₃ : Heap} (h : h₁.KeptIn h₂) (h' : h₂.KeptIn h₃) : h₁.KeptIn h₃ :=
  fun a c hc => h' a c (h a c hc)

theorem Heap.Placed.keptIn {h h' : Heap} {c : Cell} {a : Address} (placed : Placed h c a h') : h.KeptIn h' :=
  fun _ _ hb => placed.cell?_of_some hb

/-- None of the addresses holds an object. -/
def Heap.Fresh (h : Heap) (path : List Address) : Prop := ∀ a ∈ path, h.cell? a = none

theorem Heap.KeptIn.fresh {h h' : Heap} (kept : h.KeptIn h') {path : List Address} (fresh : h'.Fresh path) :
    h.Fresh path := by
  intro a ha
  cases hc : h.cell? a with
  | none => rfl
  | some c =>
    have free := fresh a ha
    rw [kept a c hc] at free
    cases free

theorem exists_of_mem_right {α β : Type} {R : α → β → Prop} {as : List α} {bs : List β}
    (related : List.Forall₂ R as bs) {b : β} (hb : b ∈ bs) : ∃ a, R a b := by
  induction related with
  | nil => cases hb
  | cons head _ ih =>
    rcases List.mem_cons.1 hb with rfl | hb
    · exact ⟨_, head⟩
    · exact ih hb

namespace Object

variable {vs : List Value} {os : List Object}

/-- The value stands for an object nested less than `n` deep, in the heap and in every heap that keeps what is in it.
On the path to the value are only objects that come later than the heap, so the value is never met again inside
itself. -/
structure Made (h : Heap) (n : Nat) (v : Value) (o : Object) : Prop where
  unfolds : ∀ l h' d path, h.KeptIn h' → h.Fresh path → v.unfoldWithin l h' d path = .ok (o.cut d)
  keyed : ∀ h' d key, h.KeptIn h' → v.keyWithin h' d = .ok key → o = key.object
  proper : o.Proper n

variable {h h' : Heap} {n : Nat} {v : Value} {o : Object} {a : Address}

theorem Made.kept (made : Made h n v o) (kept : h.KeptIn h') : Made h' n v o where
  unfolds l h'' d path kept' fresh := made.unfolds l h'' d path (kept.trans kept') (kept.fresh fresh)
  keyed h'' d key kept' := made.keyed h'' d key (kept.trans kept')
  proper := made.proper

/-- In the heap itself, with nothing on the path. -/
theorem Made.unfoldWithin (made : Made h n v o) (l : Library) (d : Nat) : v.unfoldWithin l h d [] = .ok (o.cut d) :=
  made.unfolds l h d [] (.refl h) (List.forall_mem_nil _)

/-! ### Values off the heap -/

theorem made_none : Made h (n + 1) .none .none where
  unfolds l h' d path _ _ := by cases d <;> rfl
  keyed h' d key _ ran := by
    cases d <;> cases ran
    rfl
  proper := proper_succ rfl (by simp [parts])

theorem made_bool (b : Bool) : Made h (n + 1) (.bool b) (.bool b) where
  unfolds l h' d path _ _ := by cases d <;> rfl
  keyed h' d key _ ran := by
    cases d <;> cases ran
    rfl
  proper := proper_succ rfl (by simp [parts])

theorem made_int (i : Integer) : Made h (n + 1) (.int i) (.int i) where
  unfolds l h' d path _ _ := by cases d <;> rfl
  keyed h' d key _ ran := by
    cases d <;> cases ran
    rfl
  proper := proper_succ rfl (by simp [parts])

/-! ### Values on the heap -/

theorem made_ref {c : Cell} (placed : Placed h c a h') (heaped : o.onHeap) (proper : o.Proper n)
    (unfolds : ∀ l h'' d path, h.KeptIn h'' → h.Fresh (a :: path) → h''.read a = .ok c → path.contains a = false →
      (Value.ref a).unfoldWithin l h'' (d + 1) path = .ok (o.cut (d + 1)))
    (keyed : ∀ h'' d key, h.KeptIn h'' → h''.read a = .ok c → (Value.ref a).keyWithin h'' (d + 1) = .ok key →
      o = key.object) :
    Made h' n (.ref a) o where
  unfolds l h'' d path kept fresh := by
    have read : h''.read a = .ok c := Heap.read_of_cell? (kept a c placed.cell?_self)
    have new : path.contains a = false := by
      refine Bool.eq_false_iff.2 fun on => ?_
      have free := fresh a (List.contains_iff_mem.1 on)
      rw [placed.cell?_self] at free
      cases free
    have before : h.Fresh (a :: path) := List.forall_mem_cons.2 ⟨placed.fresh, placed.keptIn.fresh fresh⟩
    cases d with
    | zero =>
      simp only [Value.unfoldWithin, new, cut, heaped]
      rfl
    | succ d => exact unfolds l h'' d path (placed.keptIn.trans kept) before read new
  keyed h'' d key kept ran := by
    have read : h''.read a = .ok c := Heap.read_of_cell? (kept a c placed.cell?_self)
    cases d with
    | zero => cases ran
    | succ d => exact keyed h'' d key (placed.keptIn.trans kept) read ran
  proper := proper

theorem made_string {s : String} (placed : Placed h (.text s) a h') : Made h' (n + 1) (.ref a) (.string s) := by
  refine made_ref placed rfl (proper_succ rfl (by simp [parts])) ?_ ?_
  · intro l h'' d path _ _ read new
    simp only [Value.unfoldWithin, new, read]
    rfl
  · intro h'' d key _ read ran
    simp only [Value.keyWithin, read] at ran
    cases ran
    rfl

theorem proper_of_items (items : List.Forall₂ (Made h n) vs os) : ∀ q ∈ os, q.Proper n := by
  intro q hq
  obtain ⟨v, made⟩ := exists_of_mem_right items hq
  exact made.proper

theorem unfold_items (items : List.Forall₂ (Made h n) vs os) (l : Library)
    {h'' : Heap} (d : Nat) {path : List Address} (kept : h.KeptIn h'') (fresh : h.Fresh path) :
    vs.mapM (Value.unfoldWithin l h'' d path) = .ok (os.map (cut d)) := by
  rw [Attempt.mapM_eq_ok, List.forall₂_map_right_iff]
  exact items.imp fun v o made => made.unfolds l h'' d path kept fresh

theorem made_list {frozen : Bool}
    (placed : Placed h (.list vs.toArray frozen) a h') (items : List.Forall₂ (Made h n) vs os) :
    Made h' (n + 1) (.ref a) (.list os) := by
  refine made_ref placed rfl (proper_succ rfl (proper_of_items items)) ?_ ?_
  · intro l h'' d path kept fresh read new
    simp only [Value.unfoldWithin, new, read]
    have shown := unfold_items items l d kept fresh
    exact Attempt.bind_eq_ok.2 ⟨_, rfl, Attempt.bind_eq_ok.2 ⟨_, shown, rfl⟩⟩
  · intro h'' d key kept read ran
    simp only [Value.keyWithin, read] at ran
    cases ran

theorem objects_of_items (items : List.Forall₂ (Made h n) vs os) {h'' : Heap}
    (kept : h.KeptIn h'') {d : Nat} {keys : List Key}
    (hashed : List.Forall₂ (fun v key => v.keyWithin h'' d = .ok key) vs keys) : os = Key.objects keys := by
  induction items generalizing keys with
  | nil =>
    cases hashed
    rfl
  | cons made _ ih =>
    cases hashed with
    | cons head tail => rw [Key.objects, made.keyed _ _ _ kept head, ih tail]

theorem made_tuple
    (placed : Placed h (.tuple vs.toArray) a h') (items : List.Forall₂ (Made h n) vs os) :
    Made h' (n + 1) (.ref a) (.tuple os) := by
  refine made_ref placed rfl (proper_succ rfl (proper_of_items items)) ?_ ?_
  · intro l h'' d path kept fresh read new
    simp only [Value.unfoldWithin, new, read]
    have shown := unfold_items items l d kept fresh
    exact Attempt.bind_eq_ok.2 ⟨_, rfl, Attempt.bind_eq_ok.2 ⟨_, shown, rfl⟩⟩
  · intro h'' d key kept read ran
    simp only [Value.keyWithin, read] at ran
    obtain ⟨_, found, ran⟩ := Attempt.bind_eq_ok.1 ran
    cases found
    obtain ⟨keys, hashed, made⟩ := Attempt.bind_eq_ok.1 ran
    cases made
    rw [Key.object, objects_of_items items kept (Attempt.mapM_eq_ok.1 hashed)]

/-- An entry stands for a pair of objects. -/
structure PairMade (h : Heap) (n : Nat) (e : Key × Value × Value) (p : Object × Object) : Prop where
  key : e.1.object = p.1
  index : Made h n e.2.1 p.1
  value : Made h n e.2.2 p.2

theorem made_dict {entries : OrderedMap Key (Value × Value)} {frozen : Bool} {ps : List (Object × Object)}
    (placed : Placed h (.dict entries frozen) a h') (pairs : List.Forall₂ (PairMade h n) entries.entries ps) :
    Made h' (n + 1) (.ref a) (.dict ps) := by
  have inner : ∀ q ∈ (dict ps).parts, q.Proper n := by
    intro q hq
    obtain ⟨p, hp, hq⟩ := List.mem_flatMap.1 hq
    obtain ⟨e, made⟩ := exists_of_mem_right pairs hp
    rcases List.mem_pair.1 hq with rfl | rfl
    · exact made.index.proper
    · exact made.value.proper
  refine made_ref placed rfl (proper_succ rfl inner) ?_ ?_
  · intro l h'' d path kept fresh read new
    simp only [Value.unfoldWithin, new, read]
    refine Attempt.bind_eq_ok.2 ⟨_, rfl, Attempt.bind_eq_ok.2 ⟨ps.map fun p => (p.1.cut d, p.2.cut d), ?_, rfl⟩⟩
    rw [Attempt.mapM_eq_ok, OrderedMap.values, List.forall₂_map_left_iff, List.forall₂_map_right_iff]
    refine pairs.imp fun e p made => ?_
    rw [made.index.unfolds l h'' d _ kept fresh, made.value.unfolds l h'' d _ kept fresh]
    rfl
  · intro h'' d key kept read ran
    simp only [Value.keyWithin, read] at ran
    cases ran

/-- A field of a struct stands for a field of an object. -/
structure FieldMade (h : Heap) (n : Nat) (f : String × Value) (g : String × Object) : Prop where
  name : f.1 = g.1
  value : Made h n f.2 g.2

theorem made_struct {fields : OrderedMap String Value} {gs : List (String × Object)}
    (placed : Placed h (.struct fields) a h') (made : List.Forall₂ (FieldMade h n) fields.entries gs) :
    Made h' (n + 1) (.ref a) (.struct gs) := by
  have inner : ∀ q ∈ (struct gs).parts, q.Proper n := by
    intro q hq
    obtain ⟨g, hg, rfl⟩ := List.mem_map.1 hq
    obtain ⟨f, made⟩ := exists_of_mem_right made hg
    exact made.value.proper
  refine made_ref placed rfl (proper_succ rfl inner) ?_ ?_
  · intro l h'' d path kept fresh read new
    simp only [Value.unfoldWithin, new, read]
    refine Attempt.bind_eq_ok.2 ⟨_, rfl, Attempt.bind_eq_ok.2 ⟨gs.map fun g => (g.1, g.2.cut d), ?_, rfl⟩⟩
    rw [Attempt.mapM_eq_ok, List.forall₂_map_right_iff]
    refine made.imp fun f g made => ?_
    rw [made.name, made.value.unfolds l h'' d _ kept fresh]
    rfl
  · intro h'' d key kept read ran
    simp only [Value.keyWithin, read] at ran
    cases ran

/-! ## Building -/

/-- The store has grown: its objects are where they were. -/
structure Grown (s s' : Store) : Prop where
  tidy : s'.heap.Tidy
  kept : s.heap.KeptIn s'.heap

theorem Grown.refl {s : Store} (tidy : s.heap.Tidy) : Grown s s := ⟨tidy, fun _ _ hc => hc⟩

theorem Grown.trans {s₁ s₂ s₃ : Store} (h : Grown s₁ s₂) (h' : Grown s₂ s₃) : Grown s₁ s₃ :=
  ⟨h'.tidy, h.kept.trans h'.kept⟩

variable {s s' : Store}

theorem allocate_ok (tidy : s.heap.Tidy) {c : Cell} (ran : Store.allocate c s = .ok v s') :
    ∃ a, v = .ref a ∧ Placed s.heap c a s'.heap := by
  obtain ⟨b, s₁, made, ran⟩ := bind_eq_ok.1 ran
  cases ran
  obtain ⟨heap, lexicon⟩ := s
  rcases Heap.allocate_cases tidy c with ⟨_, _, refused⟩ | ⟨_, _, _, _, ran, placed, _⟩
  · simp only [Store.onHeap, refused] at made
    cases made
  · simp only [Store.onHeap, ran] at made
    cases made
    exact ⟨_, rfl, placed⟩

/-- What is built of objects in fewer than `n` containers stands for the merged objects. -/
def BuildsWithin (n : Nat) : Prop :=
  ∀ (o : Object) (s : Store) (v : Value) (s' : Store), s.heap.Tidy → o.buildWithin n s = .ok v s' →
    Grown s s' ∧ Made s'.heap n v o.merged

theorem build_items (builds : BuildsWithin n) {items : List Object} (tidy : s.heap.Tidy)
    (ran : items.mapM (buildWithin n) s = .ok vs s') :
    Grown s s' ∧ List.Forall₂ (Made s'.heap n) vs (mergedItems items) := by
  induction items generalizing s vs with
  | nil =>
    cases ran
    exact ⟨.refl tidy, .nil⟩
  | cons o items ih =>
    rw [List.mapM_cons] at ran
    obtain ⟨v, s₁, first, ran⟩ := bind_eq_ok.1 ran
    obtain ⟨ws, s₂, others, ran⟩ := bind_eq_ok.1 ran
    cases ran
    obtain ⟨grown, made⟩ := builds o s v s₁ tidy first
    obtain ⟨grown', rest⟩ := ih grown.tidy others
    exact ⟨grown.trans grown', .cons (made.kept grown'.kept) rest⟩

theorem PairMade.kept {e : Key × Value × Value} {p : Object × Object} (made : PairMade h n e p)
    (kept : h.KeptIn h') : PairMade h' n e p :=
  ⟨made.key, made.index.kept kept, made.value.kept kept⟩

theorem FieldMade.kept {f : String × Value} {g : String × Object} (made : FieldMade h n f g)
    (kept : h.KeptIn h') : FieldMade h' n f g :=
  ⟨made.name, made.value.kept kept⟩

theorem build_pairs (builds : BuildsWithin n) {pairs : List (Object × Object)}
    {entries entries' : OrderedMap Key (Value × Value)} {done : List (Object × Object)} (tidy : s.heap.Tidy)
    (made : List.Forall₂ (PairMade s.heap n) entries.entries done)
    (ran : (pairs.foldlM (fun (entries : OrderedMap Key (Value × Value)) (k, v) => do
      let k ← buildWithin n k
      let v ← buildWithin n v
      let key ← Store.inspect k.key
      return entries.insert key (k, v)) entries : StoreM _) s = .ok entries' s') :
    Grown s s' ∧ List.Forall₂ (PairMade s'.heap n) entries'.entries
      ((mergedPairs pairs).foldl (fun done e => OrderedMap.put e.1 e.2 done) done) := by
  induction pairs generalizing s entries done with
  | nil =>
    cases ran
    exact ⟨.refl tidy, made⟩
  | cons p pairs ih =>
    obtain ⟨k, v⟩ := p
    rw [List.foldlM_cons] at ran
    obtain ⟨_, s₃, inserted, ran⟩ := bind_eq_ok.1 ran
    obtain ⟨i, s₁, builtKey, inserted⟩ := bind_eq_ok.1 inserted
    obtain ⟨w, s₂, builtValue, inserted⟩ := bind_eq_ok.1 inserted
    obtain ⟨key, _, hashed, inserted⟩ := bind_eq_ok.1 inserted
    cases inserted
    obtain ⟨hashed, rfl⟩ := Store.inspect_eq_ok.1 hashed
    obtain ⟨grown₁, index⟩ := builds k s i s₁ tidy builtKey
    obtain ⟨grown₂, value⟩ := builds v s₁ w s₃ grown₁.tidy builtValue
    have index' := index.kept grown₂.kept
    have same : key.object = k.merged := (index'.keyed s₃.heap _ key (fun _ _ hc => hc) hashed).symm
    have made' : List.Forall₂ (PairMade s₃.heap n) (entries.insert key (i, w)).entries
        (OrderedMap.put k.merged v.merged done) := by
      rw [OrderedMap.entries_insert]
      have kept := made.imp fun e p (pair : PairMade s.heap n e p) => pair.kept (grown₁.trans grown₂).kept
      refine OrderedMap.forall₂_put_of kept (fun e p pair => ?_) ⟨same, index', value⟩
      rw [← pair.key, ← same, Key.object_inj]
    obtain ⟨grown₃, all⟩ := ih grown₂.tidy made' ran
    exact ⟨(grown₁.trans grown₂).trans grown₃, all⟩

theorem build_fields (builds : BuildsWithin n) {fields : List (String × Object)}
    {entries entries' : OrderedMap String Value} {done : List (String × Object)} (tidy : s.heap.Tidy)
    (made : List.Forall₂ (FieldMade s.heap n) entries.entries done)
    (ran : (fields.foldlM (fun (fields : OrderedMap String Value) (x, v) => do
      let v ← buildWithin n v
      Store.learn x
      return fields.insert x v) entries : StoreM _) s = .ok entries' s') :
    Grown s s' ∧ List.Forall₂ (FieldMade s'.heap n) entries'.entries
      ((mergedFields fields).foldl (fun done e => OrderedMap.put e.1 e.2 done) done) := by
  induction fields generalizing s entries done with
  | nil =>
    cases ran
    exact ⟨.refl tidy, made⟩
  | cons p fields ih =>
    obtain ⟨x, v⟩ := p
    rw [List.foldlM_cons] at ran
    obtain ⟨_, s₂, inserted, ran⟩ := bind_eq_ok.1 ran
    obtain ⟨w, s₁, built, inserted⟩ := bind_eq_ok.1 inserted
    obtain ⟨_, _, learnt, inserted⟩ := bind_eq_ok.1 inserted
    cases inserted
    cases learnt
    obtain ⟨grown, value⟩ := builds v s w s₁ tidy built
    have made' : List.Forall₂ (FieldMade s₁.heap n) (entries.insert x w).entries
        (OrderedMap.put x v.merged done) := by
      rw [OrderedMap.entries_insert]
      have kept := made.imp fun f g (field : FieldMade s.heap n f g) => field.kept grown.kept
      refine OrderedMap.forall₂_put_of kept (fun f g field => ?_) ⟨rfl, value⟩
      rw [field.name]
    obtain ⟨grown', all⟩ := ih (s := ⟨s₁.heap, s₁.lexicon.learn x⟩) grown.tidy made' ran
    exact ⟨grown.trans ⟨grown'.tidy, grown'.kept⟩, all⟩

/-- An object that is built stands for itself, merged. -/
theorem buildsWithin (n : Nat) : BuildsWithin n := by
  induction n with
  | zero =>
    intro o s v s' tidy ran
    cases ran
  | succ n builds =>
    intro o s v s' tidy ran
    cases o with
    | none =>
      cases ran
      exact ⟨.refl tidy, made_none⟩
    | bool b =>
      cases ran
      exact ⟨.refl tidy, made_bool b⟩
    | int i =>
      cases ran
      exact ⟨.refl tidy, made_int i⟩
    | string t =>
      obtain ⟨a, rfl, placed⟩ := allocate_ok tidy ran
      exact ⟨⟨placed.tidy, placed.keptIn⟩, made_string placed⟩
    | list items =>
      obtain ⟨vs, s₁, built, ran⟩ := bind_eq_ok.1 ran
      obtain ⟨grown, made⟩ := build_items builds tidy built
      obtain ⟨a, rfl, placed⟩ := allocate_ok grown.tidy ran
      exact ⟨grown.trans ⟨placed.tidy, placed.keptIn⟩, made_list placed made⟩
    | tuple items =>
      obtain ⟨vs, s₁, built, ran⟩ := bind_eq_ok.1 ran
      obtain ⟨grown, made⟩ := build_items builds tidy built
      obtain ⟨a, rfl, placed⟩ := allocate_ok grown.tidy ran
      exact ⟨grown.trans ⟨placed.tidy, placed.keptIn⟩, made_tuple placed made⟩
    | dict pairs =>
      obtain ⟨entries, s₁, built, ran⟩ := bind_eq_ok.1 ran
      obtain ⟨grown, made⟩ := build_pairs builds tidy .nil built
      obtain ⟨a, rfl, placed⟩ := allocate_ok grown.tidy ran
      exact ⟨grown.trans ⟨placed.tidy, placed.keptIn⟩, made_dict placed made⟩
    | struct fields =>
      obtain ⟨entries, s₁, built, ran⟩ := bind_eq_ok.1 ran
      obtain ⟨grown, made⟩ := build_fields builds tidy .nil built
      obtain ⟨a, rfl, placed⟩ := allocate_ok grown.tidy ran
      exact ⟨grown.trans ⟨placed.tidy, placed.keptIn⟩, made_struct placed made⟩
    | described text => cases ran
    | cycle text => cases ran

end Object

end Scriptlet
