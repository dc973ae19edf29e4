import Scriptlet.Proofs.Dict.Sessions

/-!
# Dictionary lookup and equality

A dictionary is looked up by keys. To a program this cannot be told from a search through the entries, one after
another, for an index that is equal: in every session, at every moment, the two find the same entry.
-/

namespace Scriptlet

/-- Goes through the entries of a dictionary to the first whose index equals a value. -/
def Value.scan (h : Heap) (k : Value) : List (Value × Value) → Attempt (Option (Value × Value))
  | [] => return Option.none
  | e :: es => do if ← e.1.equal h k then return some e else scan h k es

namespace Heap

/-- In a heap, lookup in dictionaries agrees with equality. -/
structure LookupAgrees (h : Heap) : Prop where
  /-- Each entry is stored under the key that its index has now. -/
  stored : ∀ {a entries frozen}, h.cell? a = some (.dict entries frozen) →
    ∀ e ∈ entries.entries, e.2.1.key h = .ok e.1
  /-- Values that have keys are equal exactly if their keys are the same. -/
  equal : ∀ {v w : Value} {key other : Key}, v.key h = .ok key → w.key h = .ok other →
    v.equal h w = .ok (decide (key = other))
  /-- What has a key is in a dictionary, and can be looked up there, exactly if a search finds it. -/
  lookup : ∀ {a entries frozen}, h.cell? a = some (.dict entries frozen) →
    ∀ {k : Value} {key : Key}, k.key h = .ok key →
      ∃ found, k.scan h entries.values = .ok found ∧
        (Value.ref a).contains h k = .ok found.isSome ∧
        (Value.ref a).item h k = found.elim (raise (.keyNotFound key)) fun e => .ok e.2
  /-- No two indices are equal. -/
  distinct : ∀ {a entries frozen}, h.cell? a = some (.dict entries frozen) →
    entries.values.Pairwise fun e f => e.1.equal h f.1 = .ok false

variable {h : Heap}

theorem scan_of_keys {k : Value} {key : Key} (hashed : k.key h = .ok key) {es : List (Key × Value × Value)}
    (keyed : ∀ e ∈ es, e.2.1.key h = .ok e.1) :
    k.scan h (es.map Prod.snd) = .ok ((es.find? fun e => e.1 = key).map Prod.snd) := by
  induction es with
  | nil => rfl
  | cons e es ih =>
    obtain ⟨first, rest⟩ := List.forall_mem_cons.1 keyed
    rw [List.map_cons, Value.scan, Value.equal_of_keys first hashed]
    by_cases same : e.1 = key
    · rw [List.find?_cons_of_pos (by simp [same]), decide_eq_true same]
      rfl
    · rw [List.find?_cons_of_neg (by simp [same]), decide_eq_false same]
      exact ih rest

section

variable {a : Address} {entries : OrderedMap Key (Value × Value)} {frozen : Bool} {k : Value} {key : Key}

theorem contains_dict (hd : h.cell? a = some (.dict entries frozen)) (hashed : k.key h = .ok key) :
    (Value.ref a).contains h k = .ok (entries.find? key).isSome := by
  have noText : (Value.ref a).text? h = .ok none := by
    simp only [Value.text?, read_of_cell? hd]
    rfl
  refine Attempt.bind_eq_ok.2 ⟨none, noText, Attempt.bind_eq_ok.2 ⟨_, read_of_cell? hd, ?_⟩⟩
  exact Attempt.bind_eq_ok.2 ⟨key, hashed, rfl⟩

theorem item_dict (hd : h.cell? a = some (.dict entries frozen)) (hashed : k.key h = .ok key) :
    (Value.ref a).item h k = (entries.find? key).elim (raise (.keyNotFound key)) fun e => .ok e.2 := by
  simp only [Value.item, read_of_cell? hd, hashed, Bind.bind, Except.bind]
  cases entries.find? key with
  | none => rfl
  | some e => rfl

end

theorem Keyed.lookupAgrees (keyed : h.Keyed) : h.LookupAgrees where
  stored hd := keyed.cells _ _ hd
  equal := Value.equal_of_keys
  lookup {a entries frozen} hd k key hashed := by
    refine ⟨entries.find? key, ?_, contains_dict hd hashed, item_dict hd hashed⟩
    rw [OrderedMap.find?_eq]
    exact scan_of_keys hashed (keyed.cells a _ hd)
  distinct {a entries frozen} hd := by
    have stored := keyed.cells a _ hd
    have nodup : entries.entries.Pairwise fun e f => e.1 ≠ f.1 := List.pairwise_map.1 entries.nodup_keys
    refine List.pairwise_map.2 (nodup.imp_of_mem fun {e f} he hf ne => ?_)
    rw [Value.equal_of_keys (stored e he) (stored f hf), decide_eq_false ne]

end Heap

/-- In every session, at each moment at which code asks something of the machine and when the session ends, lookup in
dictionaries agrees with equality. The watched session is the session itself. -/
theorem session_lookup_agrees (name : String) (meter : Budget.Meter) (steps : List Step) :
    ((Module.create name meter).runWatched {} steps).1 = (Module.create name meter).run steps ∧
    ((Module.create name meter).run steps).2.heap.LookupAgrees ∧
    ∀ μ ∈ ((Module.create name meter).runWatched {} steps).2, μ.machine.store.heap.LookupAgrees := by
  have session := Module.session_right (Module.tracked_create name meter) steps
  obtain ⟨after, moments⟩ := Module.keyed_runWatched (m := .create name meter) (Heap.keyed_empty meter) {} steps
  rw [session.result] at after
  exact ⟨session.result, after.lookupAgrees, fun μ hμ => (moments μ hμ).lookupAgrees⟩

-- The same index, put together a second time, lies elsewhere on the heap and finds the entry.
example :
    ((Module.create "m" (.depthOnly none)).run [
      .exec .silent [.assign (.name "d") (.dict [
        (.tuple [.str "a", .binary (.str "b") .add (.str "c")], .bool true)])],
      .eval (.index (.name "d") (.tuple [.str "a", .str "bc"]))]).1.map (·.answer) =
    [.done, .object (.bool true)] := by
  decide +kernel

end Scriptlet
