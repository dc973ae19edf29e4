import Scriptlet.Proofs.Object.Building
import Scriptlet.Proofs.PassedStores

/-!
# Objects that a module accepts

An object that a module accepts as a global can be read again. It comes back merged, without a mark of a cycle, and
whole as long as every string and every container in it lies under fewer containers than data may be deep. A module
accepts one level more than it shows: a string or an empty container under exactly as many containers as data may be
deep is accepted, and a mark comes back in its place.
-/

namespace Scriptlet

open Budget (Meter maxDataDepth)

/-- The object inside `n` lists. -/
def Object.nested : Nat → Object → Object
  | 0, o => o
  | n + 1, o => .list [nested n o]

theorem Object.lies_nested (n : Nat) (o : Object) : o.Lies n (nested n o) := by
  induction n with
  | zero => exact .self
  | succ n ih => exact .inside (List.mem_singleton.2 rfl) ih

theorem Object.merged_nested (n : Nat) (o : Object) : (nested n o).merged = nested n o.merged := by
  induction n with
  | zero => rfl
  | succ n ih => rw [nested, merged, mergedItems, mergedItems, ih, nested]

theorem Object.cut_nested (n : Nat) (o : Object) : (nested n o).cut n = nested n (o.cut 0) := by
  induction n with
  | zero => rfl
  | succ n ih =>
    show list [(nested n o).cut n] = list [nested n (o.cut 0)]
    rw [ih]

namespace Module

variable {m : Module} {x : String} {o : Object}

theorem tidy_run (name : String) (meter : Meter) (steps : List Step) : ((create name meter).run steps).2.heap.Tidy := by
  have passes : (create name meter).Passes steps _ _ := .after
  exact passes.inOrder.tidy

/-- A global that was set is read from the value that was built of the object. -/
theorem get_of_set (accepted : (m.set x o).1 = .ok ()) :
    ∃ v store, o.build m.store = .ok v store ∧
      (m.set x o).2.get x = v.unfold m.library store.heap >>= fun seen => .ok (some seen) := by
  obtain ⟨name, library, store, globals⟩ := m
  unfold set at accepted ⊢
  cases built : (do let v ← o.build; Store.learn x; return v : StoreM Value) store with
  | error e s =>
    simp only [built] at accepted
    cases accepted
  | ok v s =>
    simp only [built] at accepted ⊢
    obtain ⟨w, s₁, ran, built⟩ := bind_eq_ok.1 built
    obtain ⟨_, _, learnt, built⟩ := bind_eq_ok.1 built
    cases built
    cases learnt
    refine ⟨v, s₁, ran, ?_⟩
    split at accepted
    · cases accepted
    · rename_i open'
      rw [if_neg open']
      have found : (globals.assign x v).lookup library x = .ok v := by
        unfold Globals.lookup Globals.assign
        rw [OrderedMap.find?_insert, if_pos rfl]
      simp only [get, found]
      rfl

/-- An accepted object is proper once it is merged, and what is read is the merged object, cut. -/
theorem get_eq_cut_of_set (tidy : m.heap.Tidy) (accepted : (m.set x o).1 = .ok ()) :
    o.merged.Proper (maxDataDepth + 1) ∧ (m.set x o).2.get x = .ok (some (o.merged.cut maxDataDepth)) := by
  obtain ⟨v, store, built, read⟩ := get_of_set accepted
  obtain ⟨-, made⟩ := Object.buildsWithin _ o m.store v store tidy built
  have shown : v.unfold m.library store.heap = .ok (o.merged.cut maxDataDepth) := by
    rw [Value.unfold_eq_unfoldWithin]
    exact made.unfolds m.library store.heap maxDataDepth [] (fun _ _ hc => hc) (by simp [Heap.Fresh])
  rw [shown] at read
  exact ⟨made.proper, read⟩

/-- In every session, an accepted object comes back merged, and whole unless a string or a container lies under as
many containers as data may be deep. In place of those, and only there, marks come back. No mark is one of a cycle. -/
theorem get_set_exact (name : String) (meter : Meter) (steps : List Step) (x : String) (o : Object)
    (accepted : (((create name meter).run steps).2.set x o).1 = .ok ()) :
    ∃ seen, (((create name meter).run steps).2.set x o).2.get x = .ok (some seen) ∧
      seen = o.merged.cut maxDataDepth ∧
      (seen = o.merged ↔ ∀ p : Object, p.Lies maxDataDepth o.merged → ¬ p.onHeap) ∧
      (∀ k (p : Object), p.Lies k o.merged → k ≤ maxDataDepth) ∧
      (∀ k text, ¬ (Object.cycle text).Lies k seen) ∧
      (∀ k text, (Object.described text).Lies k seen ↔
        k = maxDataDepth ∧ text = "..." ∧ ∃ p : Object, p.onHeap ∧ p.Lies maxDataDepth o.merged) := by
  obtain ⟨proper, read⟩ := get_eq_cut_of_set (tidy_run name meter steps) accepted
  refine ⟨o.merged.cut maxDataDepth, read, rfl, Object.cut_eq_self_iff proper, ?_, ?_, ?_⟩
  · intro k p lies
    exact Nat.le_of_lt_succ (proper k p lies).1
  · intro k text lies
    obtain ⟨-, mark, -⟩ := (Object.lies_cut_outputOnly_iff proper rfl).1 lies
    cases mark
  · intro k text
    rw [Object.lies_cut_outputOnly_iff proper rfl, Object.described.injEq]

/-- A dictionary in which a key occurs twice comes back merged. -/
theorem get_set_exact_repeated :
    let m := ((create "m" (.depthOnly none)).run [.set "y" (.string "a"), .collect]).2
    let pair : Object := .tuple [.string "a", .int 1]
    let o : Object := .dict [(pair, .list [.string "b"]), (.none, .none), (pair, .struct [("c", .none)])]
    (m.set "x" o).1 = .ok () ∧
      ∃ seen, (m.set "x" o).2.get "x" = .ok (some seen) ∧
        seen = .dict [(pair, .struct [("c", .none)]), (.none, .none)] := by
  intro m pair o
  have accepted : (m.set "x" o).1 = .ok () := by decide +kernel
  have merged : o.merged.cut maxDataDepth = .dict [(pair, .struct [("c", .none)]), (.none, .none)] := by
    decide +kernel
  obtain ⟨seen, read, same, -⟩ :=
    get_set_exact "m" (.depthOnly none) [.set "y" (.string "a"), .collect] "x" o accepted
  exact ⟨accepted, seen, read, same.trans merged⟩

/-- The innermost of 201 nested lists is accepted, and a mark comes back in its place. -/
theorem get_set_loses_innermost :
    let m := create "m" (.depthOnly none)
    let o := Object.nested maxDataDepth (.list [])
    (m.set "x" o).1 = .ok () ∧
      ∃ seen, (m.set "x" o).2.get "x" = .ok (some seen) ∧ ∃ k text, (Object.described text).Lies k seen := by
  intro m o
  have accepted : (m.set "x" o).1 = .ok () := by decide +kernel
  have tidy : m.heap.Tidy := Heap.tidy_empty (.depthOnly none)
  obtain ⟨-, read⟩ := get_eq_cut_of_set tidy accepted
  rw [Object.merged_nested, Object.cut_nested] at read
  exact ⟨accepted, _, read, maxDataDepth, "...", Object.lies_nested maxDataDepth (.described "...")⟩

end Module

end Scriptlet
