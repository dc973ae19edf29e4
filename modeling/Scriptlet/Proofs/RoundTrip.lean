import Scriptlet.Proofs.Object.Growing
import Scriptlet.Proofs.PassedStores

/-!
# Objects that come back

A host object that is built on the heap of a session and converted again comes back: merged, and so unchanged if no key
and no field occurs twice in it. It can be built exactly if the indices of its dictionaries are objects of keys, and
whether or not it can, nothing on the heap changes.
-/

namespace Scriptlet

open Budget (Meter maxDataDepth)

/-! ## What lies in merged objects -/

namespace Object

theorem mergedItems_eq_map (os : List Object) : mergedItems os = os.map merged := by
  induction os with
  | nil => rfl
  | cons o os ih => rw [mergedItems, ih, List.map_cons]

theorem mergedPairs_eq_map (ps : List (Object × Object)) :
    mergedPairs ps = ps.map fun p => (p.1.merged, p.2.merged) := by
  induction ps with
  | nil => rfl
  | cons p ps ih => rw [mergedPairs, ih, List.map_cons]

theorem mergedFields_eq_map (fs : List (String × Object)) : mergedFields fs = fs.map fun f => (f.1, f.2.merged) := by
  induction fs with
  | nil => rfl
  | cons f fs ih => rw [mergedFields, ih, List.map_cons]

variable {k : Nat} {o p : Object}

theorem exists_of_mem_parts_merged (part : p ∈ o.merged.parts) : ∃ q ∈ o.parts, p = q.merged := by
  cases o with
  | list items =>
    rw [merged, mergedItems_eq_map] at part
    obtain ⟨q, hq, rfl⟩ := List.mem_map.1 part
    exact ⟨q, hq, rfl⟩
  | tuple items =>
    rw [merged, mergedItems_eq_map] at part
    obtain ⟨q, hq, rfl⟩ := List.mem_map.1 part
    exact ⟨q, hq, rfl⟩
  | dict pairs =>
    rw [merged, mergedPairs_eq_map] at part
    obtain ⟨e, he, hp⟩ := List.mem_flatMap.1 part
    obtain ⟨q, hq, rfl⟩ := List.mem_map.1 (OrderedMap.mem_of_mem_lastWins he)
    have inner (r : Object) (hr : r ∈ [q.1, q.2]) : r ∈ (dict pairs).parts := List.mem_flatMap.2 ⟨q, hq, hr⟩
    rcases List.mem_pair.1 hp with rfl | rfl
    · exact ⟨q.1, inner q.1 (by simp), rfl⟩
    · exact ⟨q.2, inner q.2 (by simp), rfl⟩
  | struct fields =>
    rw [merged, mergedFields_eq_map] at part
    obtain ⟨e, he, rfl⟩ := List.mem_map.1 part
    obtain ⟨f, hf, rfl⟩ := List.mem_map.1 (OrderedMap.mem_of_mem_lastWins he)
    exact ⟨f.2, List.mem_map_of_mem hf, rfl⟩
  | _ => cases part

/-- What lies in a merged object was in the object, and is merged itself. -/
theorem exists_of_lies_merged (lies : p.Lies k o.merged) : ∃ q : Object, q.Lies k o ∧ p = q.merged := by
  induction k generalizing o with
  | zero => exact ⟨o, .self, lies_zero_iff.1 lies⟩
  | succ k ih =>
    obtain ⟨r, part, lies⟩ := lies_succ_iff.1 lies
    obtain ⟨q, hq, rfl⟩ := exists_of_mem_parts_merged part
    obtain ⟨p, inside, rfl⟩ := ih lies
    exact ⟨p, .inside hq inside, rfl⟩

theorem onHeap_merged (o : Object) : o.merged.onHeap = o.onHeap := by
  cases o <;> rfl

/-- If strings and containers lie under fewer than `d` containers, nothing lies under more than `d`. -/
theorem proper_of_shallow {d : Nat} (whole : o.Whole) (shallow : ∀ k (p : Object), p.Lies k o → p.onHeap → k < d) :
    o.Proper (d + 1) := by
  induction d generalizing o with
  | zero =>
    have plain : ¬ o.onHeap := fun heaped => Nat.not_lt_zero _ (shallow 0 o .self heaped)
    refine proper_succ (whole 0 o .self) ?_
    rw [parts_of_not_onHeap (Bool.eq_false_iff.2 plain)]
    exact List.forall_mem_nil _
  | succ d ih =>
    refine proper_succ (whole 0 o .self) fun q part => ih (whole.part part) fun k p lies heaped => ?_
    exact Nat.lt_of_succ_lt_succ (shallow (k + 1) p (.inside part lies) heaped)

end Object

/-- In every store that a session passes through and whose meter has no limits, an object in which nothing is a mark and
no string and no container lies too deep can be built exactly if the indices of its dictionaries are objects of keys.
All that was on the heap stays as it was. The value that was built is converted to the merged object, which is the object
itself if nothing is repeated in it. -/
theorem object_round_trip {name : String} {meter : Meter} {steps : List Step} {l : Library} {s : Store}
    (passes : (Module.create name meter).Passes steps l s) (free : s.heap.meter.Unlimited) {o : Object}
    (whole : o.Whole) (shallow : ∀ k (p : Object), p.Lies k o → p.onHeap → k < maxDataDepth) :
    ((∃ v s', o.build s = .ok v s') ↔ o.Indexed) ∧
    (∀ f s', o.build s = .error f s' → s.heap.KeptIn s'.heap) ∧
    ∀ v s', o.build s = .ok v s' → s.heap.KeptIn s'.heap ∧ v.unfold l s'.heap = .ok o.merged ∧
      (o.Unrepeated → v.unfold l s'.heap = .ok o) := by
  have tidy := passes.inOrder.tidy
  have built : Object.Built _ _ s (o.build s) := Object.buildsNew _ (Nat.le_refl _) o s tidy
  have cut : o.merged.cut maxDataDepth = o.merged := by
    refine Object.cut_eq_self fun k p lies heaped => ?_
    obtain ⟨q, inside, rfl⟩ := Object.exists_of_lies_merged lies
    exact shallow k q inside (Object.onHeap_merged q ▸ heaped)
  have shown (v : Value) (s' : Store) (ran : o.build s = .ok v s') : v.unfold l s'.heap = .ok o.merged := by
    obtain ⟨-, made⟩ := Object.buildsWithin _ o s v s' tidy ran
    rw [Value.unfold_eq_unfoldWithin, made.unfoldWithin l, cut]
  refine ⟨⟨?_, fun indexed => ?_⟩, fun f s' ran => ?_, fun v s' ran => ⟨?_, shown v s' ran, fun once => ?_⟩⟩
  · rintro ⟨v, s', ran⟩
    rw [ran] at built
    cases built with
    | ok _ holds => exact holds.2
  · cases ran : o.build s with
    | ok v s' => exact ⟨v, s', rfl⟩
    | error f s' =>
      rw [ran] at built
      cases built with
      | error _ reason => exact absurd ⟨free, Object.proper_of_shallow whole shallow, indexed⟩ reason
  · rw [ran] at built
    cases built with
    | error larger _ => exact larger.kept
  · rw [ran] at built
    cases built with
    | ok larger _ => exact larger.kept
  · rw [shown v s' ran, Object.merged_eq_self o once]

/-- A dictionary with a repeated index is built after a session and comes back merged. -/
theorem object_round_trip_repeated :
    let m := ((Module.create "m" (.start .standard)).run [.set "y" (.list [.string "a"]), .collect]).2
    let pair : Object := .tuple [.string "a", .int 1]
    let o : Object := .dict [(pair, .list [.string "b"]), (.none, .none), (pair, .struct [("c", .none), ("c", pair)])]
    m.heap.meter.Unlimited ∧ o.Whole ∧ (∀ k (p : Object), p.Lies k o → p.onHeap → k < maxDataDepth) ∧ o.Indexed ∧
      ∃ v s', o.build m.store = .ok v s' ∧ m.heap.KeptIn s'.heap ∧
        v.unfold m.library s'.heap = .ok (.dict [(pair, .struct [("c", pair)]), (.none, .none)]) := by
  intro m pair o
  have free : m.heap.meter.Unlimited := Meter.unlimited_of_standard (by decide +kernel)
  have proper : o.Proper 4 := by decide
  have whole : o.Whole := fun k p lies => (proper k p lies).2
  have shallow (k : Nat) (p : Object) (lies : p.Lies k o) (_ : p.onHeap) : k < maxDataDepth :=
    Nat.lt_trans (proper k p lies).1 (by decide)
  have merged : o.merged = .dict [(pair, .struct [("c", pair)]), (.none, .none)] := by decide +kernel
  have ran : ∃ v s', o.build m.store = .ok v s' := by
    have built : (EStateM.run' o.build m.store).isSome := by decide +kernel
    unfold EStateM.run' EStateM.run at built
    cases ran : o.build m.store with
    | ok v s' => exact ⟨v, s', rfl⟩
    | error f s' =>
      rw [ran] at built
      cases built
  obtain ⟨indexed, -, back⟩ := object_round_trip .after free whole shallow
  obtain ⟨v, s', ran⟩ := ran
  obtain ⟨kept, shown, -⟩ := back v s' ran
  exact ⟨free, whole, shallow, indexed.1 ⟨v, s', ran⟩, v, s', ran, kept, merged ▸ shown⟩

end Scriptlet
