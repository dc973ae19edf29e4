import Scriptlet.Object.Text
import Scriptlet.Proofs.DictLookup
import Scriptlet.Proofs.Object.Shown

/-!
# The text of keys

A key that is not found is shown in the message. The text is made from the key, in a way of its own, and yet it is the
representation of the value that was looked up, as a host gets to see it: both go through the same tuples, and in what
has a key there are no cycles to be marked.
-/

namespace Scriptlet

open Budget (maxDataDepth)
open Heap (Cell)

/-! ## Two printers -/

namespace Key

mutual

theorem repr_object : (key : Key) → key.object.repr = key.text
  | .none => rfl
  | .bool true => rfl
  | .bool false => rfl
  | .int _ => rfl
  | .str _ => rfl
  | .tuple keys => by
    have length : (objects keys).length = keys.length := by rw [objects_eq_map, List.length_map]
    rw [object, Object.repr, text, reprs_objects keys, length]

theorem reprs_objects : (keys : List Key) → Object.reprs (objects keys) = texts keys
  | [] => rfl
  | key :: keys => by rw [objects, Object.reprs, texts, repr_object key, reprs_objects keys]

end

end Key

/-! ## Values with keys -/

namespace Value

variable {l : Library} {h : Heap} {n : Nat} {path : List Address} {a : Address} {c : Cell} {v w : Value} {key : Key}

/-- Only tuples with keys have parts, and their parts have keys. -/
theorem exists_keyWithin_of_part (hashed : (Value.ref a).keyWithin h n = .ok key) (found : h.cell? a = some c)
    (part : w ∈ c.parts) : ∃ m other, w.keyWithin h m = .ok other := by
  cases n with
  | zero => cases hashed
  | succ n =>
    cases hasKey_of_keyWithin hashed with
    | text read =>
      obtain rfl := Option.some.inj ((Heap.cell?_of_read read).symm.trans found)
      cases part
    | tuple read items =>
      obtain rfl := Option.some.inj ((Heap.cell?_of_read read).symm.trans found)
      obtain ⟨other, -, inner⟩ := exists_of_mem_left items part
      exact ⟨n, other, inner⟩

theorem exists_keyWithin_of_leads (hashed : v.keyWithin h n = .ok key) (leads : Leads h v path w) :
    ∃ m other, w.keyWithin h m = .ok other := by
  induction leads with
  | self => exact ⟨n, key, hashed⟩
  | inside _ found part ih =>
    obtain ⟨m, other, outer⟩ := ih
    exact exists_keyWithin_of_part outer found part

/-- What has a key is data. -/
theorem isData_of_keyWithin (hashed : v.keyWithin h n = .ok key) : v.IsData h := by
  cases n with
  | zero => cases hashed
  | succ n =>
    cases hasKey_of_keyWithin hashed with
    | text read => exact ⟨_, Heap.cell?_of_read read, rfl⟩
    | tuple read _ => exact ⟨_, Heap.cell?_of_read read, rfl⟩
    | _ => trivial

/-- A value that has a key, and in which nothing lies too deep, is converted to the object of the key. -/
theorem unfold_of_key (hashed : v.key h = .ok key) (fits : v.FitsIn h maxDataDepth) :
    v.unfold l h = .ok key.object := by
  have data (path : List Address) (w : Value) (leads : Leads h v path w) : w.IsData h := by
    obtain ⟨m, other, inner⟩ := exists_keyWithin_of_leads hashed leads
    exact isData_of_keyWithin inner
  obtain ⟨o, shown, ran⟩ := shownWithin_of_data (l := l) data fits
  rw [unfold_eq_unfoldWithin, ran, shown.eq_object hashed]

end Value

/-! ## Lookup -/

namespace Value

variable {h : Heap} {c k : Value} {key : Key} {e : Fault.Cause}

/-- A sequence never says that a key is not found. -/
theorem kind_of_itemAt {type : ValueType} {items : Array Value}
    (failed : (do itemAt type items (← k.asIndex h)) = .error (.raised e)) : e.kind ≠ .keyError := by
  cases k with
  | int n =>
    replace failed : itemAt type items n = .error (.raised e) := failed
    unfold itemAt at failed
    split at failed <;> cases failed
    exact Fault.Kind.noConfusion
  | ref a =>
    simp only [asIndex, Value.type, Heap.read] at failed
    cases found : h.cell? a <;> rw [found] at failed <;> cases failed
    exact Fault.Kind.noConfusion
  | _ =>
    cases failed
    exact Fault.Kind.noConfusion

/-- A key is not found exactly in the dictionaries that do not have it. -/
theorem item_keyError_iff (hashed : k.key h = .ok key) :
    (c.item h k = .error (.raised e) ∧ e.kind = .keyError) ↔
      (∃ a entries frozen, c = .ref a ∧ h.cell? a = some (.dict entries frozen) ∧ entries.find? key = Option.none) ∧
      e = .keyNotFound key := by
  constructor
  · rintro ⟨failed, kind⟩
    cases c with
    | ref a =>
      cases found : h.cell? a with
      | none =>
        simp only [item, Heap.read, found] at failed
        cases failed
      | some cell =>
        cases cell with
        | dict entries frozen =>
          rw [Heap.item_dict found hashed] at failed
          cases absent : entries.find? key with
          | none =>
            rw [absent] at failed
            cases failed
            exact ⟨⟨a, entries, frozen, rfl, found, absent⟩, rfl⟩
          | some entry =>
            rw [absent] at failed
            cases failed
        | list items frozen =>
          simp only [item, Heap.read_of_cell? found] at failed
          exact absurd kind (kind_of_itemAt failed)
        | tuple items =>
          simp only [item, Heap.read_of_cell? found] at failed
          exact absurd kind (kind_of_itemAt failed)
        | _ =>
          simp only [item, Heap.read_of_cell? found] at failed
          cases failed
          cases kind
    | _ =>
      cases failed
      cases kind
  · rintro ⟨⟨a, entries, frozen, rfl, found, absent⟩, rfl⟩
    refine ⟨?_, rfl⟩
    rw [Heap.item_dict found hashed, absent]
    rfl

end Value

/-- A value that has a key, and whose strings and tuples all lie under fewer tuples than data may be deep, is converted
to an object whose representation is the text of the key. So a dictionary that does not have the key says so with the
representation of the value that was looked up, and no lookup with this value says it in any other way. -/
theorem key_text_is_repr {h : Heap} {k : Value} {key : Key} (l : Library) (hashed : k.key h = .ok key)
    (fits : k.FitsIn h maxDataDepth) :
    ∃ o, k.unfold l h = .ok o ∧ key.text = o.repr ∧
      (∀ a entries frozen, h.cell? a = some (.dict entries frozen) → entries.find? key = none →
        ∃ e, (Value.ref a).item h k = .error (.raised e) ∧ e.kind = .keyError) ∧
      ∀ (c : Value) (e : Fault.Cause), c.item h k = .error (.raised e) → e.kind = .keyError →
        e.message = "key " ++ o.repr ++ " not found in dictionary" := by
  have same : key.text = key.object.repr := key.repr_object.symm
  refine ⟨key.object, Value.unfold_of_key hashed fits, same, fun a entries frozen found absent => ?_, ?_⟩
  · exact ⟨_, (Value.item_keyError_iff hashed).2 ⟨⟨a, entries, frozen, rfl, found, absent⟩, rfl⟩⟩
  · intro c e failed kind
    obtain ⟨-, rfl⟩ := (Value.item_keyError_iff hashed).1 ⟨failed, kind⟩
    rw [← same]
    rfl

/-- A tuple that holds another one twice, with a string that is stored in the heap and one that is not. -/
theorem key_text_is_repr_shared :
    let h : Heap := {
      slots := #[some (.tuple #[.ref ⟨1⟩, .ref ⟨1⟩, .text "a"]), some (.tuple #[.ref ⟨2⟩]), some (.text "b\n"),
        some (.dict .empty false)]
      meter := .depthOnly none }
    let k : Value := .ref ⟨0⟩
    let key : Key := .tuple [.tuple [.str "b\n"], .tuple [.str "b\n"], .str "a"]
    k.key h = .ok key ∧ k.FitsIn h maxDataDepth ∧ ∃ o, k.unfold {} h = .ok o ∧ key.text = o.repr ∧
      ∃ e, (Value.ref ⟨3⟩).item h k = .error (.raised e) ∧
        e.message = "key " ++ o.repr ++ " not found in dictionary" := by
  intro h k key
  have hashed : k.key h = .ok key := by decide +kernel
  have ran : k.unfoldWithin {} h maxDataDepth [] = .ok key.object := by decide +kernel
  have proper : key.object.Proper 4 := by decide +kernel
  have fits : k.FitsIn h maxDataDepth :=
    Value.ShownWithin.fitsIn ⟨fun i p lies => (proper i p lies).2, [], ran⟩
  obtain ⟨o, shown, same, raises, message⟩ := key_text_is_repr {} hashed fits
  obtain ⟨e, failed, kind⟩ := raises ⟨3⟩ .empty false rfl (OrderedMap.find?_empty key)
  exact ⟨hashed, fits, o, shown, same, e, failed, message _ e failed kind⟩

end Scriptlet
