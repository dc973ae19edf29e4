import Scriptlet.Proofs.Heap.Leads
import Scriptlet.Proofs.Object.Shown

/-!
# Building only adds

Whether it succeeds or fails, building an object leaves every object on the heap as it was. If it succeeds, all that
lies in the value is new: it was put together from objects that were placed in empty slots, parts before wholes. And
it only fails for a reason: the meter refuses, an object only ever comes out or lies too deep, or an index of a
dictionary has no key.
-/

namespace Scriptlet

open Budget (Meter)
open Heap (Cell Placed)

/-! ## Objects that can be built -/

/-- The meter limits neither the number of objects nor their size. -/
def Budget.Meter.Unlimited (m : Meter) : Prop :=
  ∀ limits, m.limits? = some limits → limits.maxAllocations = none ∧ limits.maxMemory = none

theorem Budget.Meter.Unlimited.charge {m : Meter} (free : m.Unlimited) (size : Nat) : ∃ m', m.charge size = .ok m' := by
  cases m with
  | depthOnly maxDepth => exact ⟨_, rfl⟩
  | full limits c =>
    obtain ⟨allocations, memory⟩ := free limits rfl
    simp only [Meter.charge, allocations, memory, Option.filter_none]
    exact ⟨_, rfl⟩

theorem Budget.Meter.Unlimited.of_reset {m m' : Meter} (free : m.Unlimited) (same : m'.reset = m.reset) :
    m'.Unlimited := by
  have limits (m : Meter) : m.reset.limits? = m.limits? := by cases m <;> rfl
  unfold Unlimited
  rw [← limits, same, limits]
  exact free

theorem Budget.Meter.unlimited_of_standard {m : Meter} (standard : m.limits? = some .standard) : m.Unlimited := by
  intro limits same
  obtain rfl := Option.some.inj (standard.symm.trans same)
  exact ⟨rfl, rfl⟩

namespace Object

/-- Each index of a dictionary in the object is the object of a key. -/
def Indexed (o : Object) : Prop := ∀ k ps, (dict ps).Lies k o → ∀ p ∈ ps, ∃ key : Key, p.1 = key.object

theorem Indexed.part {o q : Object} (indexed : o.Indexed) (part : q ∈ o.parts) : q.Indexed :=
  fun _ ps lies => indexed _ ps (.inside part lies)

mutual

/-- An object that is that of a key once it is merged was so before. -/
theorem eq_object_of_merged : (o : Object) → (key : Key) → o.merged = key.object → o = key.object
  | .none, key, same => same
  | .bool b, key, same => same
  | .int i, key, same => same
  | .string s, key, same => same
  | .list items, key, same => by cases key <;> cases same
  | .tuple items, key, same => by
    cases key with
    | tuple keys =>
      rw [merged, Key.object, tuple.injEq] at same
      rw [Key.object, ← eq_objects_of_mergedItems items keys same]
    | _ => cases same
  | .dict pairs, key, same => by cases key <;> cases same
  | .struct fields, key, same => by cases key <;> cases same
  | .described text, key, same => same
  | .cycle text, key, same => same

theorem eq_objects_of_mergedItems : (os : List Object) → (keys : List Key) → mergedItems os = Key.objects keys →
    os = Key.objects keys
  | [], keys, same => same
  | o :: os, [], same => by cases same
  | o :: os, key :: keys, same => by
    rw [mergedItems, Key.objects, List.cons.injEq] at same
    rw [Key.objects, ← eq_object_of_merged o key same.1, ← eq_objects_of_mergedItems os keys same.2]

end

/-! ## Runs that only add -/

/-- The store has grown, and the terms of its meter are the same. -/
structure Larger (s s' : Store) : Prop extends Grown s s' where
  meter : s'.heap.meter.reset = s.heap.meter.reset

theorem Larger.refl {s : Store} (tidy : s.heap.Tidy) : Larger s s := ⟨.refl tidy, rfl⟩

theorem Larger.trans {s₁ s₂ s₃ : Store} (h : Larger s₁ s₂) (h' : Larger s₂ s₃) : Larger s₁ s₃ :=
  ⟨h.toGrown.trans h'.toGrown, h'.meter.trans h.meter⟩

/-- A run from `s` has left all objects where they were. If it succeeded, `Q` holds of the heap and the result, and if
it failed, there was the reason `F`. -/
inductive Built {α : Type} (F : Prop) (Q : Heap → α → Prop) (s : Store) : EStateM.Result Failure Store α → Prop where
  | ok {a : α} {s' : Store} (larger : Larger s s') (holds : Q s'.heap a) : Built F Q s (.ok a s')
  | error {f : Failure} {s' : Store} (larger : Larger s s') (reason : F) : Built F Q s (.error f s')

namespace Built

variable {α β : Type} {F F' : Prop} {P : Heap → α → Prop} {Q : Heap → β → Prop} {s s₀ : Store}

theorem imp {P' : Heap → α → Prop} {r : EStateM.Result Failure Store α} (built : Built F P s r) (reason : F → F')
    (holds : ∀ a s', Larger s s' → P s'.heap a → P' s'.heap a) : Built F' P' s r := by
  cases built with
  | ok larger h => exact .ok larger (holds _ _ larger h)
  | error larger h => exact .error larger (reason h)

theorem bind {x : StoreM α} {f : α → StoreM β} (first : Built F P s (x s))
    (next : ∀ a s', x s = .ok a s' → Larger s s' → P s'.heap a → Built F Q s' (f a s')) :
    Built F Q s ((x >>= f) s) := by
  cases ran : x s with
  | ok a s' =>
    rw [ran] at first
    cases first with
    | ok larger holds =>
      rw [bind_of_ok ran]
      have rest := next a s' ran larger holds
      generalize f a s' = r at rest ⊢
      cases rest with
      | ok larger' holds => exact .ok (larger.trans larger') holds
      | error larger' reason => exact .error (larger.trans larger') reason
  | error e s' =>
    rw [ran] at first
    cases first with
    | error larger reason =>
      rw [bind_of_error ran]
      exact .error larger reason

/-- What holds of each result one by one, and goes on holding while the heap grows, holds of all in the end. -/
theorem mapM {R : Heap → α → β → Prop} {f : α → StoreM β} {as : List α}
    (stable : ∀ {h h' a b}, h.KeptIn h' → R h a b → R h' a b) (larger : Larger s₀ s)
    (each : ∀ a ∈ as, ∀ s', Larger s₀ s' → Built F (fun h b => R h a b) s' (f a s')) :
    Built F (fun h bs => List.Forall₂ (R h) as bs) s (as.mapM f s) := by
  induction as generalizing s with
  | nil => exact .ok (.refl larger.tidy) .nil
  | cons a as ih =>
    obtain ⟨head, tail⟩ := List.forall_mem_cons.1 each
    rw [List.mapM_cons]
    refine (head s larger).bind fun b s₁ _ larger₁ related => ?_
    refine (ih (larger.trans larger₁) tail).bind fun bs s₂ _ larger₂ rest => ?_
    exact .ok (.refl larger₂.tidy) (.cons (stable larger₂.kept related) rest)

/-- What each step keeps, and goes on holding while the heap grows, holds in the end. -/
theorem foldlM {I : Heap → List α → β → Prop} {f : β → α → StoreM β} {as done : List α} {b : β} (larger : Larger s₀ s)
    (step : ∀ a ∈ as, ∀ done b s', Larger s₀ s' → I s'.heap done b →
      Built F (fun h b' => I h (done ++ [a]) b') s' (f b a s')) (start : I s.heap done b) :
    Built F (fun h b' => I h (done ++ as) b') s (as.foldlM f b s) := by
  induction as generalizing s done b with
  | nil =>
    refine .ok (.refl larger.tidy) ?_
    rw [List.append_nil]
    exact start
  | cons a as ih =>
    obtain ⟨head, tail⟩ := List.forall_mem_cons.1 step
    rw [List.foldlM_cons]
    refine (head done b s larger start).bind fun b' s₁ _ larger₁ holds => ?_
    refine (ih (larger.trans larger₁) tail holds).imp id fun b'' s₂ _ holds => ?_
    rw [List.append_assoc] at holds
    exact holds

end Built

end Object

/-! ## Values that are new -/

/-- What is not there later was not there before. -/
theorem Heap.KeptIn.empty {h h' : Heap} (kept : h.KeptIn h') {a : Address} (empty : h'.cell? a = none) :
    h.cell? a = none :=
  kept.fresh (List.forall_mem_singleton.2 empty) a List.mem_cons_self

/-- All that lies in the value, in the heap `h'` and in all heaps that keep its objects, was not there in `h`. -/
def Value.NewIn (h h' : Heap) (v : Value) : Prop :=
  ∀ h'', h'.KeptIn h'' → ∀ path a, v.Leads h'' path (.ref a) → h.cell? a = Option.none

namespace Value.NewIn

variable {h h₁ h' : Heap} {v : Value} {a : Address} {c : Cell}

theorem of_not_ref (off : v.address? = Option.none) : v.NewIn h h' := by
  intro h'' _ path a leads
  rw [← (leads.eq_self off).2] at off
  cases off

theorem mono (new : v.NewIn h₁ h') {h'' : Heap} (before : h.KeptIn h₁) (after : h'.KeptIn h'') : v.NewIn h h'' := by
  intro heap kept path a leads
  exact before.empty (new heap (after.trans kept) path a leads)

/-- An object that is placed in an empty slot is new if its parts are. -/
theorem placed (placed : Placed h₁ c a h') (before : h.KeptIn h₁) (parts : ∀ w ∈ c.parts, w.NewIn h h₁) :
    (ref a).NewIn h h' := by
  intro h'' kept path b leads
  rcases leads.eq_or_of_part with ⟨-, same⟩ | ⟨a', d, w, inner, same, found, part, -, below⟩
  · cases same
    exact before.empty placed.fresh
  · cases same
    obtain rfl := Option.some.inj ((kept a c placed.cell?_self).symm.trans found)
    exact parts w part h'' (placed.keptIn.trans kept) inner b below

end Value.NewIn

namespace Object

variable {s : Store}

theorem built_allocate (tidy : s.heap.Tidy) (c : Cell) :
    Built (¬ s.heap.meter.Unlimited) (fun h v => ∃ a, v = .ref a ∧ Placed s.heap c a h) s (Store.allocate c s) := by
  obtain ⟨heap, lexicon⟩ := s
  rcases Heap.allocate_cases tidy c with ⟨use, refused, ran⟩ | ⟨meter, a, h', _, ran, placed, _⟩
  · have made : Store.onHeap (Heap.allocate c) ⟨heap, lexicon⟩ = .error (.ofCause (.exhausted use)) ⟨heap, lexicon⟩ := by
      simp only [Store.onHeap, ran]
    rw [Store.allocate, bind_of_error made]
    refine .error (.refl tidy) fun free => ?_
    obtain ⟨m, charged⟩ := free.charge c.size
    rw [charged] at refused
    cases refused
  · have made : Store.onHeap (Heap.allocate c) ⟨heap, lexicon⟩ = .ok a ⟨h', lexicon⟩ := by
      simp only [Store.onHeap, ran]
    rw [Store.allocate, bind_of_ok made]
    exact .ok ⟨⟨placed.tidy, placed.keptIn⟩, placed.meter⟩ ⟨a, rfl, placed⟩

/-- The object can be built from the store: the meter allows it, nothing in the object only ever comes out or lies too
deep, and the indices of dictionaries are objects of keys. -/
structure Buildable (n : Nat) (s : Store) (o : Object) : Prop where
  free : s.heap.meter.Unlimited
  proper : o.Proper n
  indexed : o.Indexed

theorem Buildable.part {n : Nat} {s' : Store} {o q : Object} (buildable : o.Buildable (n + 1) s) (part : q ∈ o.parts)
    (larger : Larger s s') : q.Buildable n s' :=
  ⟨buildable.free.of_reset larger.meter, buildable.proper.part part, buildable.indexed.part part⟩

theorem indexed_of_parts {o : Object} (parts : ∀ q ∈ o.parts, q.Indexed)
    (indices : ∀ ps, o = .dict ps → ∀ p ∈ ps, ∃ key : Key, p.1 = key.object) : o.Indexed := by
  intro k ps lies
  cases lies with
  | self => exact indices ps rfl
  | inside part lies => exact parts _ part _ ps lies

variable {α : Type} {F : Prop} {n : Nat} {o : Object}

theorem built_inspect {f : Heap → Attempt α} (tidy : s.heap.Tidy) (fails : ∀ e, f s.heap = .error e → F) :
    Built F (fun h a => h = s.heap ∧ f h = .ok a) s (Store.inspect f s) := by
  obtain ⟨heap, lexicon⟩ := s
  simp only [Store.inspect, Store.onHeap, Heap.inspect]
  cases seen : f heap with
  | ok a => exact .ok (.refl tidy) ⟨rfl, seen⟩
  | error e => exact .error (.refl tidy) (fails e seen)

theorem built_learn (tidy : s.heap.Tidy) (x : String) : Built F (fun h _ => h = s.heap) s (Store.learn x s) :=
  .ok ⟨⟨tidy, .refl _⟩, rfl⟩ rfl

mutual

theorem merged_object : (key : Key) → key.object.merged = key.object
  | .none => rfl
  | .bool _ => rfl
  | .int _ => rfl
  | .str _ => rfl
  | .tuple keys => by rw [Key.object, merged, mergedItems_objects keys]

theorem mergedItems_objects : (keys : List Key) → mergedItems (Key.objects keys) = Key.objects keys
  | [] => rfl
  | key :: keys => by rw [Key.objects, mergedItems, merged_object key, mergedItems_objects keys]

end

/-- A value that was built of the object of a key has the key. -/
theorem Made.key {h : Heap} {v : Value} {key : Key} (made : Made h n v key.object) (le : n ≤ Budget.maxDataDepth) :
    v.key h = .ok key := by
  have whole : key.object.Whole := fun k p lies => (made.proper k p lies).2
  have all : key.object.cut Budget.maxDataDepth = key.object :=
    cut_eq_self fun k p lies _ => Nat.lt_of_lt_of_le (made.proper k p lies).1 le
  have ran := made.unfoldWithin {} Budget.maxDataDepth
  rw [all] at ran
  exact Value.ShownWithin.keyWithin ⟨whole, [], ran⟩

end Object

/-- The parts of a dictionary with one entry more. -/
theorem Heap.Cell.mem_parts_insert {entries : OrderedMap Key (Value × Value)} {frozen : Bool} {key : Key}
    {e : Value × Value} {w : Value} (part : w ∈ (Cell.dict (entries.insert key e) frozen).parts) :
    w = e.1 ∨ w = e.2 ∨ w ∈ (Cell.dict entries frozen).parts := by
  obtain ⟨_, mem, hw⟩ := List.mem_flatMap.1 part
  obtain ⟨f, hf, rfl⟩ := List.mem_map.1 mem
  rw [OrderedMap.entries_insert] at hf
  rcases OrderedMap.eq_or_mem_of_mem_put hf with rfl | hf
  · rcases List.mem_pair.1 hw with rfl | rfl
    · exact .inl rfl
    · exact .inr (.inl rfl)
  · exact .inr (.inr (List.mem_flatMap.2 ⟨f.2, List.mem_map_of_mem hf, hw⟩))

/-- The parts of a struct with one field more. -/
theorem Heap.Cell.mem_parts_insert_field {fields : OrderedMap String Value} {x : String} {v w : Value}
    (part : w ∈ (Cell.struct (fields.insert x v)).parts) : w = v ∨ w ∈ (Cell.struct fields).parts := by
  obtain ⟨f, hf, rfl⟩ := List.mem_map.1 part
  rw [OrderedMap.entries_insert] at hf
  rcases OrderedMap.eq_or_mem_of_mem_put hf with rfl | hf
  · exact .inl rfl
  · exact .inr (List.mem_map_of_mem hf)

/-! ## Building -/

namespace Object

variable {s : Store} {n : Nat} {o : Object}

/-- Building under fewer than `n` containers only adds, makes values that are new, and fails only for a reason. -/
def BuildsNew (n : Nat) : Prop :=
  ∀ (o : Object) (s : Store), s.heap.Tidy →
    Built (¬ o.Buildable n s) (fun h v => v.NewIn s.heap h ∧ o.Indexed) s (o.buildWithin n s)

theorem BuildsNew.part (builds : BuildsNew n) {q : Object} (part : q ∈ o.parts) {s' : Store} (larger : Larger s s') :
    Built (¬ o.Buildable (n + 1) s) (fun h v => v.NewIn s.heap h ∧ q.Indexed) s' (q.buildWithin n s') := by
  refine (builds q s' larger.tidy).imp (fun no yes => no (yes.part part larger)) fun v s'' larger' holds => ?_
  exact ⟨holds.1.mono larger.kept (.refl _), holds.2⟩

theorem built_items (builds : BuildsNew n) {items : List Object} (parts : ∀ q ∈ items, q ∈ o.parts)
    (tidy : s.heap.Tidy) :
    Built (¬ o.Buildable (n + 1) s) (fun h vs => (∀ v ∈ vs, v.NewIn s.heap h) ∧ ∀ q ∈ items, q.Indexed) s
      (items.mapM (buildWithin n) s) := by
  have all := Built.mapM (R := fun h (q : Object) (v : Value) => v.NewIn s.heap h ∧ q.Indexed)
    (fun kept holds => ⟨holds.1.mono (.refl _) kept, holds.2⟩) (Larger.refl tidy)
    fun q hq s' larger => builds.part (parts q hq) larger
  refine all.imp id fun vs s' _ related => ⟨fun v hv => ?_, fun q hq => ?_⟩
  · obtain ⟨q, -, holds⟩ := exists_of_mem_left related.flip hv
    exact holds.1
  · obtain ⟨v, -, holds⟩ := exists_of_mem_left related hq
    exact holds.2

theorem built_pairs (builds : BuildsNew n) (le : n ≤ Budget.maxDataDepth) (pairs : List (Object × Object))
    (tidy : s.heap.Tidy) :
    Built (¬ (dict pairs).Buildable (n + 1) s)
      (fun h entries => (∀ w ∈ (Cell.dict entries false).parts, w.NewIn s.heap h) ∧
        ∀ p ∈ pairs, p.1.Indexed ∧ p.2.Indexed ∧ ∃ key : Key, p.1 = key.object) s
      ((pairs.foldlM (fun (entries : OrderedMap Key (Value × Value)) (k, v) => do
        let k ← buildWithin n k
        let v ← buildWithin n v
        let key ← Store.inspect k.key
        return entries.insert key (k, v)) .empty : StoreM _) s) := by
  refine Built.foldlM (I := fun h (done : List (Object × Object)) entries =>
    (∀ w ∈ (Cell.dict entries false).parts, w.NewIn s.heap h) ∧
      ∀ p ∈ done, p.1.Indexed ∧ p.2.Indexed ∧ ∃ key : Key, p.1 = key.object) (Larger.refl tidy)
    (fun p mem done entries s' larger before => ?_) ⟨List.forall_mem_nil _, List.forall_mem_nil _⟩
  have inner (q : Object) (hq : q ∈ [p.1, p.2]) : q ∈ (dict pairs).parts := List.mem_flatMap.2 ⟨p, mem, hq⟩
  refine (builds.part (inner p.1 (by simp)) larger).bind fun i s₁ ran larger₁ index => ?_
  refine (builds.part (inner p.2 (by simp)) (larger.trans larger₁)).bind fun w s₂ _ larger₂ value => ?_
  have made := (buildsWithin n p.1 s' i s₁ larger.tidy ran).2.kept larger₂.kept
  have fails (e : Flaw) (failed : i.key s₂.heap = .error e) : ¬ (dict pairs).Buildable (n + 1) s := by
    intro buildable
    obtain ⟨key, same⟩ := buildable.indexed 0 pairs .self p mem
    rw [same, merged_object] at made
    rw [made.key le] at failed
    cases failed
  refine (built_inspect larger₂.tidy fails).bind fun key s₃ _ larger₃ looked => ?_
  obtain ⟨heap, hashed⟩ := looked
  refine .ok (.refl larger₃.tidy) ⟨fun u part => ?_, ?_⟩
  · have kept := larger₂.trans larger₃
    rcases Cell.mem_parts_insert part with rfl | rfl | part
    · exact index.1.mono (.refl _) kept.kept
    · exact value.1.mono (.refl _) larger₃.kept
    · exact (before.1 u part).mono (.refl _) (larger₁.trans kept).kept
  · intro q hq
    rcases List.mem_append.1 hq with hq | hq
    · exact before.2 q hq
    · rw [List.mem_singleton.1 hq]
      have same := made.keyed s₃.heap _ key (heap ▸ .refl _) hashed
      exact ⟨index.2, value.2, key, eq_object_of_merged p.1 key same⟩

theorem built_fields (builds : BuildsNew n) (fields : List (String × Object)) (tidy : s.heap.Tidy) :
    Built (¬ (struct fields).Buildable (n + 1) s)
      (fun h entries => (∀ w ∈ (Cell.struct entries).parts, w.NewIn s.heap h) ∧ ∀ f ∈ fields, f.2.Indexed) s
      ((fields.foldlM (fun (fields : OrderedMap String Value) (x, v) => do
        let v ← buildWithin n v
        Store.learn x
        return fields.insert x v) .empty : StoreM _) s) := by
  refine Built.foldlM (I := fun h (done : List (String × Object)) entries =>
    (∀ w ∈ (Cell.struct entries).parts, w.NewIn s.heap h) ∧ ∀ f ∈ done, f.2.Indexed) (Larger.refl tidy)
    (fun f mem done entries s' larger before => ?_) ⟨List.forall_mem_nil _, List.forall_mem_nil _⟩
  have part : f.2 ∈ (struct fields).parts := List.mem_map_of_mem mem
  refine (builds.part part larger).bind fun w s₁ _ larger₁ value => ?_
  refine (built_learn larger₁.tidy f.1).bind fun _ s₂ _ larger₂ _ => ?_
  refine .ok (.refl larger₂.tidy) ⟨fun u part => ?_, fun g hg => ?_⟩
  · rcases Cell.mem_parts_insert_field part with rfl | part
    · exact value.1.mono (.refl _) larger₂.kept
    · exact (before.1 u part).mono (.refl _) (larger₁.trans larger₂).kept
  · rcases List.mem_append.1 hg with hg | hg
    · exact before.2 g hg
    · rw [List.mem_singleton.1 hg]
      exact value.2

/-- A container is placed after its parts were built. -/
theorem built_container {F : Prop} {s' : Store} {c : Cell} (larger : Larger s s')
    (reason : ¬ s'.heap.meter.Unlimited → F) (parts : ∀ w ∈ c.parts, w.NewIn s.heap s'.heap) {P : Prop} (holds : P) :
    Built F (fun h v => v.NewIn s.heap h ∧ P) s' (Store.allocate c s') := by
  refine (built_allocate larger.tidy c).imp reason fun v s'' _ made => ?_
  obtain ⟨a, rfl, placed⟩ := made
  exact ⟨.placed placed larger.kept parts, holds⟩

/-- An object that is no container holds no dictionary. -/
theorem indexed_of_no_parts (none : o.parts = []) (noDict : ∀ ps, o ≠ .dict ps) : o.Indexed :=
  indexed_of_parts (by rw [none]; exact List.forall_mem_nil _) fun ps same => absurd same (noDict ps)

theorem buildsNew (n : Nat) (le : n ≤ Budget.maxDataDepth + 1) : BuildsNew n := by
  induction n with
  | zero =>
    intro o s tidy
    exact .error (.refl tidy) fun buildable => Nat.not_lt_zero 0 (buildable.proper 0 o .self).1
  | succ n ih =>
    intro o s tidy
    have builds := ih (Nat.le_of_succ_le le)
    have refused {s' : Store} (larger : Larger s s') (refused : ¬ s'.heap.meter.Unlimited) :
        ¬ o.Buildable (n + 1) s := fun buildable => refused (buildable.free.of_reset larger.meter)
    cases o with
    | string t =>
      refine built_container (.refl tidy) (refused (.refl tidy)) (List.forall_mem_nil _) ?_
      exact indexed_of_no_parts rfl fun ps same => Object.noConfusion same
    | list items =>
      refine (built_items builds (fun _ => id) tidy).bind fun vs s₁ _ larger holds => ?_
      refine built_container larger (refused larger) (fun w hw => holds.1 w ?_) ?_
      · exact hw
      · exact indexed_of_parts holds.2 fun ps same => Object.noConfusion same
    | tuple items =>
      refine (built_items builds (fun _ => id) tidy).bind fun vs s₁ _ larger holds => ?_
      refine built_container larger (refused larger) (fun w hw => holds.1 w ?_) ?_
      · exact hw
      · exact indexed_of_parts holds.2 fun ps same => Object.noConfusion same
    | dict pairs =>
      refine (built_pairs builds (Nat.le_of_succ_le_succ le) pairs tidy).bind fun entries s₁ _ larger holds => ?_
      refine built_container larger (refused larger) holds.1 (indexed_of_parts (fun q hq => ?_) fun ps same => ?_)
      · obtain ⟨p, hp, hq⟩ := List.mem_flatMap.1 hq
        obtain ⟨index, value, -⟩ := holds.2 p hp
        rcases List.mem_pair.1 hq with rfl | rfl
        · exact index
        · exact value
      · cases same
        exact fun p hp => (holds.2 p hp).2.2
    | struct fields =>
      refine (built_fields builds fields tidy).bind fun entries s₁ _ larger holds => ?_
      refine built_container larger (refused larger) holds.1 (indexed_of_parts (fun q hq => ?_) fun ps same => ?_)
      · obtain ⟨f, hf, rfl⟩ := List.mem_map.1 hq
        exact holds.2 f hf
      · cases same
    | described text => exact .error (.refl tidy) fun buildable => Bool.noConfusion (buildable.proper 0 _ .self).2
    | cycle text => exact .error (.refl tidy) fun buildable => Bool.noConfusion (buildable.proper 0 _ .self).2
    | _ => exact .ok (.refl tidy) ⟨.of_not_ref rfl, indexed_of_no_parts rfl fun ps same => Object.noConfusion same⟩

end Object

end Scriptlet
