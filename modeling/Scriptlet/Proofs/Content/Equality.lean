import Mathlib.Data.List.Perm.Subperm
import Scriptlet.Proofs.Content.Basic

/-!
# The answers of equality

Equality in the language looks at most so deep and then refuses to answer. Whenever it answers, it says whether the
contents are the same; and it always answers if one of the two values is not nested too deep.
-/

namespace Scriptlet

open Budget (maxDataDepth)
open Heap (Cell)

section

variable {h : Heap} {R : Value → Value → Prop} {v w : Value} {c d : Cell} {n : Nat}

/-! ## Answers -/

namespace Attempt

/-- If an answer is given, it says whether `P` holds. -/
def Right (r : Attempt Bool) (P : Prop) : Prop := ∀ b, r = .ok b → (b = true ↔ P)

variable {r r' : Attempt Bool} {P Q : Prop}

theorem right_ok {b : Bool} (iff : b = true ↔ P) : Right (.ok b) P := by
  intro b' ran
  cases ran
  exact iff

theorem right_no (not : ¬ P) : Right (.ok false) P := right_ok ⟨Bool.noConfusion, fun h => absurd h not⟩

theorem Right.congr (right : Right r P) (iff : P ↔ Q) : Right r Q := fun b ran => (right b ran).trans iff

theorem Right.after {α : Type} {x : Attempt α} {f : α → Attempt Bool} (right : ∀ a, x = .ok a → Right (f a) P) :
    Right (x >>= f) P := by
  intro b ran
  obtain ⟨a, first, ran⟩ := bind_eq_ok.1 ran
  exact right a first b ran

/-- A second question is asked only if the first one is answered with yes. -/
theorem Right.and (first : Right r P) (second : Right r' Q) : Right (do if ← r then r' else return false) (P ∧ Q) := by
  cases r with
  | error e =>
    intro b ran
    cases ran
  | ok b =>
    have holds : b = true ↔ P := first b rfl
    cases b with
    | true => exact second.congr (and_iff_right (holds.1 rfl)).symm
    | false => exact right_no fun both => Bool.noConfusion (holds.2 both.1)

end Attempt

open Attempt (Right right_no right_ok)

namespace Value

theorem right_allEqual {eq : Value → Value → Attempt Bool} (right : ∀ v w, Right (eq v w) (R v w))
    (vs ws : List Value) : Right (allEqual eq vs ws) (List.Forall₂ R vs ws) := by
  induction vs generalizing ws with
  | nil =>
    cases ws with
    | nil => exact right_ok ⟨fun _ => .nil, fun _ => rfl⟩
    | cons w ws => exact right_no fun related => by cases related
  | cons v vs ih =>
    cases ws with
    | nil => exact right_no fun related => by cases related
    | cons w ws => exact ((right v w).and (ih ws)).congr List.forall₂_cons.symm

theorem right_allMatch {κ : Type} {eq : Value → Value → Attempt Bool} (right : ∀ v w, Right (eq v w) (R v w))
    (other : κ → Option Value) (es : List (κ × Value)) :
    Right (allMatch eq other es) (∀ e ∈ es, ∃ w, other e.1 = some w ∧ R e.2 w) := by
  induction es with
  | nil => exact right_ok ⟨fun _ => List.forall_mem_nil _, fun _ => rfl⟩
  | cons e es ih =>
    obtain ⟨k, v⟩ := e
    rw [allMatch]
    cases found : other k with
    | none =>
      refine right_no fun all => ?_
      obtain ⟨w, hw, -⟩ := all (k, v) List.mem_cons_self
      rw [found] at hw
      cases hw
    | some w =>
      refine ((right v w).and ih).congr ?_
      rw [List.forall_mem_cons, found]
      exact and_congr_left' ⟨fun related => ⟨w, rfl, related⟩, fun ⟨_, same, related⟩ => Option.some.inj same ▸ related⟩

/-- Maps of the same size bind the same keys if all keys of the first are bound in the second. -/
theorem found_iff_sameKeys {κ α : Type} [Ord κ] [Std.TransOrd κ] [DecidableEq κ] {R : α → α → Prop}
    (m n : OrderedMap κ α) :
    (m.size = n.size ∧ ∀ e ∈ m.entries, ∃ b, n.find? e.1 = some b ∧ R e.2 b) ↔
      (∀ k, k ∈ m.keys ↔ k ∈ n.keys) ∧ ∀ k a b, m.find? k = some a → n.find? k = some b → R a b := by
  have length (m : OrderedMap κ α) : m.keys.length = m.size := by rw [OrderedMap.keys, List.length_map, m.length_entries]
  constructor
  · rintro ⟨sizes, found⟩
    have sub : m.keys ⊆ n.keys := by
      intro k mem
      obtain ⟨e, he, rfl⟩ := List.mem_map.1 mem
      obtain ⟨b, hb, -⟩ := found e he
      exact (n.mem_keys_iff e.1).2 ⟨b, hb⟩
    have perm : m.keys.Perm n.keys :=
      (List.Nodup.subperm m.nodup_keys sub).perm_of_length_le (Nat.le_of_eq (by rw [length, length, sizes]))
    refine ⟨fun k => perm.mem_iff, fun k a b ha hb => ?_⟩
    obtain ⟨b', hb', related⟩ := found (k, a) (m.find?_eq_some_iff.1 ha)
    obtain rfl := Option.some.inj (hb.symm.trans hb')
    exact related
  · rintro ⟨keys, values⟩
    have perm : m.keys.Perm n.keys := (List.perm_ext_iff_of_nodup m.nodup_keys n.nodup_keys).2 keys
    refine ⟨by rw [← length, ← length, perm.length_eq], fun e he => ?_⟩
    obtain ⟨b, hb⟩ := (n.mem_keys_iff e.1).1 ((keys e.1).1 (List.mem_map_of_mem he))
    exact ⟨b, hb, values e.1 e.2 b (m.find?_eq_some_iff.2 he) hb⟩

theorem right_ite {p : Prop} [Decidable p] {r : Attempt Bool} {P : Prop} (right : Right r P) :
    Right (if p then r else return false) (p ∧ P) := by
  by_cases holds : p
  · rw [if_pos holds]
    exact right.congr (and_iff_right holds).symm
  · rw [if_neg holds]
    exact right_no fun both => holds both.1

variable {eq : Value → Value → Attempt Bool}

theorem right_items (right : ∀ v w, Right (eq v w) (R v w)) (vs ws : Array Value) :
    Right (if vs.size = ws.size then allEqual eq vs.toList ws.toList else return false)
      (List.Forall₂ R vs.toList ws.toList) :=
  (right_ite (right_allEqual right _ _)).congr ⟨And.right, fun items => ⟨items.length_eq, items⟩⟩

theorem right_fields (right : ∀ v w, Right (eq v w) (R v w)) (es fs : OrderedMap String Value) :
    Right (if es.size = fs.size then allMatch eq fs.find? es.entries else return false)
      ((Cell.struct es).SameParts R (.struct fs)) := by
  refine ((right_ite (right_allMatch right _ _)).congr (found_iff_sameKeys es fs)).congr ?_
  constructor
  · rintro ⟨names, values⟩
    exact .struct names values
  · rintro ⟨⟩
    exact ⟨‹_›, ‹_›⟩

theorem right_entries (right : ∀ v w, Right (eq v w) (R v w)) (es fs : OrderedMap Key (Value × Value))
    (frozen frozen' : Bool) :
    Right (if es.size = fs.size then
        allMatch eq (fun k => (fs.find? k).map (·.2)) (es.entries.map fun e => (e.1, e.2.2))
      else return false) ((Cell.dict es frozen).SameParts R (.dict fs frozen')) := by
  have found := right_ite (p := es.size = fs.size)
    (right_allMatch right (fun k => (fs.find? k).map (·.2)) (es.entries.map fun e => (e.1, e.2.2)))
  refine (found.congr ?_).congr ((found_iff_sameKeys (R := fun e f => R e.2 f.2) es fs).trans ?_)
  · refine and_congr_right' ?_
    rw [List.forall_mem_map]
    refine forall₂_congr fun e he => ?_
    simp only [Option.map_eq_some_iff]
    constructor
    · rintro ⟨_, ⟨f, hf, rfl⟩, related⟩
      exact ⟨f, hf, related⟩
    · rintro ⟨f, hf, related⟩
      exact ⟨f.2, ⟨f, hf, rfl⟩, related⟩
  · constructor
    · rintro ⟨keys, values⟩
      exact .dict keys values
    · rintro ⟨⟩
      exact ⟨‹_›, ‹_›⟩

/-- Values that are not the same and not both strings can only look the same if they are containers. -/
theorem looksSame_iff_sameParts {a b : Address} {s t : Option String} (ne : ref a ≠ ref b)
    (hs : (ref a).text? h = .ok s) (ht : (ref b).text? h = .ok t) (strings : ∀ s' t', s = some s' → t = some t' → False)
    (ha : h.read a = .ok c) (hb : h.read b = .ok d) : LooksSame h R (.ref a) (.ref b) ↔ c.SameParts R d := by
  constructor
  · intro looks
    cases looks with
    | same => exact absurd rfl ne
    | text hv hw =>
      rw [hs] at hv
      rw [ht] at hw
      exact (strings _ _ (Except.ok.inj hv) (Except.ok.inj hw)).elim
    | container ha' hb' parts =>
      obtain rfl := Except.ok.inj (ha.symm.trans (Heap.read_of_cell? ha'))
      obtain rfl := Except.ok.inj (hb.symm.trans (Heap.read_of_cell? hb'))
      exact parts
  · exact .container (Heap.cell?_of_read ha) (Heap.cell?_of_read hb)

/-- If equality answers, it says whether the contents are the same. -/
theorem right_equalWithin (n : Nat) (v w : Value) : Right (equalWithin h n v w) (SameContent h v w) := by
  induction n generalizing v w with
  | zero =>
    intro b ran
    cases ran
  | succ n ih =>
    suffices layer : Right (equalWithin h (n + 1) v w) (LooksSame h (SameContent h) v w) from
      layer.congr ⟨SameContent.of_looksSame, SameContent.looksSame⟩
    unfold equalWithin
    by_cases same : v = w
    · subst same
      rw [if_pos rfl]
      exact right_ok ⟨fun _ => .same v, fun _ => rfl⟩
    rw [if_neg same]
    refine .after fun s hs => .after fun t ht => ?_
    split
    · rename_i s t
      refine right_ok ⟨fun eq => .text hs (beq_iff_eq.1 eq ▸ ht), fun looks => beq_iff_eq.2 ?_⟩
      exact Option.some.inj (Except.ok.inj ((looks.text?_eq hs).symm.trans ht))
    rename_i strings
    split
    · refine .after fun c ha => .after fun d hb => ?_
      refine Right.congr ?_ (looksSame_iff_sameParts same hs ht strings ha hb).symm
      split
      · refine (right_items ih _ _).congr ⟨.list, fun parts => ?_⟩
        cases parts
        assumption
      · refine (right_items ih _ _).congr ⟨.tuple, fun parts => ?_⟩
        cases parts
        assumption
      · exact right_entries ih _ _ _ _
      · exact right_fields ih _ _
      · rename_i lists tuples dicts structs
        refine right_no fun parts => ?_
        cases parts with
        | list _ => exact lists _ _ _ _ rfl rfl
        | tuple _ => exact tuples _ _ rfl rfl
        | dict _ _ => exact dicts _ _ _ _ rfl rfl
        | struct _ _ => exact structs _ _ rfl rfl
    · rename_i refs
      refine right_no fun looks => ?_
      cases looks with
      | same => exact same rfl
      | text hv hw => exact strings _ _ (Except.ok.inj (hs.symm.trans hv)) (Except.ok.inj (ht.symm.trans hw))
      | container ha hb _ => exact refs _ _ rfl rfl

/-! ## Failures -/

theorem text?_of_live (live : v.LiveIn h) : ∃ s, v.text? h = .ok s := by
  cases v with
  | text s => exact ⟨some s, rfl⟩
  | ref a =>
    obtain ⟨c, found⟩ := live a rfl
    simp only [text?, Heap.read_of_cell? found]
    cases c <;> exact ⟨_, rfl⟩
  | _ => exact ⟨Option.none, rfl⟩

theorem allEqual_error {vs ws : List Value} {f : Flaw} (failed : allEqual eq vs ws = .error f) :
    ∃ v ∈ vs, ∃ w ∈ ws, eq v w = .error f := by
  induction vs generalizing ws with
  | nil => cases ws <;> cases failed
  | cons v vs ih =>
    cases ws with
    | nil => cases failed
    | cons w ws =>
      rw [allEqual] at failed
      cases first : eq v w with
      | error e =>
        rw [first] at failed
        cases failed
        exact ⟨v, List.mem_cons_self, w, List.mem_cons_self, first⟩
      | ok b =>
        rw [first] at failed
        cases b with
        | false => cases failed
        | true =>
          obtain ⟨v', hv', w', hw', failed⟩ := ih failed
          exact ⟨v', List.mem_cons_of_mem v hv', w', List.mem_cons_of_mem w hw', failed⟩

theorem allMatch_error {κ : Type} {other : κ → Option Value} {es : List (κ × Value)} {f : Flaw}
    (failed : allMatch eq other es = .error f) : ∃ e ∈ es, ∃ w, other e.1 = some w ∧ eq e.2 w = .error f := by
  induction es with
  | nil => cases failed
  | cons e es ih =>
    obtain ⟨k, v⟩ := e
    rw [allMatch] at failed
    cases found : other k with
    | none =>
      rw [found] at failed
      cases failed
    | some w =>
      rw [found] at failed
      cases first : eq v w with
      | error e =>
        simp only [first] at failed
        cases failed
        exact ⟨_, List.mem_cons_self, w, found, first⟩
      | ok b =>
        simp only [first] at failed
        cases b with
        | false => cases failed
        | true =>
          obtain ⟨e, he, failed⟩ := ih failed
          exact ⟨e, List.mem_cons_of_mem _ he, failed⟩

theorem mem_parts_of_find? {entries : OrderedMap Key (Value × Value)} {frozen : Bool} {k : Key}
    {e : Value × Value} (found : entries.find? k = some e) : e.2 ∈ (Cell.dict entries frozen).parts := by
  have mem : e ∈ entries.values := List.mem_map.2 ⟨(k, e), entries.find?_eq_some_iff.1 found, rfl⟩
  exact List.mem_flatMap.2 ⟨e, mem, by simp⟩

/-- Between objects that are there, a comparison only fails because the comparison of two parts does. -/
theorem equalWithin_error (hv : v.LiveIn h) (hw : w.LiveIn h) {f : Flaw}
    (failed : equalWithin h (n + 1) v w = .error f) :
    ∃ a b c d, v = .ref a ∧ w = .ref b ∧ h.cell? a = some c ∧ h.cell? b = some d ∧
      ∃ v' ∈ c.parts, ∃ w' ∈ d.parts, equalWithin h n v' w' = .error f := by
  obtain ⟨s, hs⟩ := text?_of_live hv
  obtain ⟨t, ht⟩ := text?_of_live hw
  unfold equalWithin at failed
  split at failed
  · cases failed
  rw [hs, ht] at failed
  simp only [Bind.bind, Except.bind] at failed
  split at failed
  · cases failed
  split at failed
  · rename_i a b _
    obtain ⟨c, ha⟩ := hv a rfl
    obtain ⟨d, hb⟩ := hw b rfl
    refine ⟨a, b, c, d, rfl, rfl, ha, hb, ?_⟩
    rw [Heap.read_of_cell? ha, Heap.read_of_cell? hb] at failed
    dsimp only at failed
    split at failed
    · split at failed
      · exact allEqual_error failed
      · cases failed
    · split at failed
      · exact allEqual_error failed
      · cases failed
    · split at failed
      · obtain ⟨e, he, w', hw', failed⟩ := allMatch_error failed
        obtain ⟨e, mem, rfl⟩ := List.mem_map.1 he
        obtain ⟨e', found, rfl⟩ := Option.map_eq_some_iff.1 hw'
        exact ⟨_, mem_parts_of_find? ((OrderedMap.find?_eq_some_iff _).2 mem), _, mem_parts_of_find? found, failed⟩
      · cases failed
    · split at failed
      · obtain ⟨e, he, w', hw', failed⟩ := allMatch_error failed
        have right := List.mem_map_of_mem (f := Prod.snd) ((OrderedMap.find?_eq_some_iff _).1 hw')
        exact ⟨e.2, List.mem_map_of_mem he, w', right, failed⟩
      · cases failed
    · cases failed
  · cases failed

/-- In a closed heap, a comparison only fails if both values are nested too deep. -/
theorem equalWithin_fails_deep (closed : h.Closed) (hv : v.LiveIn h) (hw : w.LiveIn h) {f : Flaw}
    (failed : equalWithin h n v w = .error f) :
    f = .raised (.nestedTooDeep .comparison) ∧ ∀ m < n, ¬ NestsWithin h m v ∧ ¬ NestsWithin h m w := by
  induction n generalizing v w with
  | zero =>
    cases failed
    exact ⟨rfl, fun m lt => (Nat.not_lt_zero m lt).elim⟩
  | succ n ih =>
    obtain ⟨a, b, c, d, rfl, rfl, ha, hb, v', hv', w', hw', failed⟩ := equalWithin_error hv hw failed
    obtain ⟨cause, deep⟩ := ih (.part closed ha hv') (.part closed hb hw') failed
    refine ⟨cause, fun m lt => ⟨fun nests => ?_, fun nests => ?_⟩⟩
    · obtain ⟨m, rfl, inner⟩ := nests.part ha hv'
      exact (deep m (Nat.lt_of_succ_lt_succ lt)).1 inner
    · obtain ⟨m, rfl, inner⟩ := nests.part hb hw'
      exact (deep m (Nat.lt_of_succ_lt_succ lt)).2 inner

/-- If one of two values is not nested too deep, equality has an answer. -/
theorem equal_answers (closed : h.Closed) (hv : v.LiveIn h) (hw : w.LiveIn h)
    (nests : NestsWithin h maxDataDepth v ∨ NestsWithin h maxDataDepth w) : ∃ b, v.equal h w = .ok b := by
  cases ran : v.equal h w with
  | ok b => exact ⟨b, rfl⟩
  | error f =>
    have deep := (equalWithin_fails_deep closed hv hw ran).2 maxDataDepth (Nat.lt_succ_self _)
    exact (nests.elim deep.1 deep.2).elim

end Value

end

end Scriptlet
