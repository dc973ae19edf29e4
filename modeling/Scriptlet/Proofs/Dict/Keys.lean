import Scriptlet.Proofs.Machine.Steps
import Scriptlet.Value.Equality

/-!
# Keys and equality

The key of a value and equality look at a value in two ways of their own, each down to the same depth, and agree: two
values that have keys are equal exactly if their keys are the same. A key only looks at strings and tuples, so it
stays what it is wherever these stay.
-/

namespace Scriptlet

theorem forall₂_imp_of_mem {α β : Type} {R S : α → β → Prop} {as : List α} {bs : List β}
    (imp : ∀ a ∈ as, ∀ b, R a b → S a b) (related : List.Forall₂ R as bs) : List.Forall₂ S as bs := by
  induction related with
  | nil => exact .nil
  | cons head _ ih =>
    rw [List.forall_mem_cons] at imp
    exact .cons (imp.1 _ head) (ih imp.2)

theorem forall₂_comp {α β γ : Type} {R : α → β → Prop} {S : β → γ → Prop} {as : List α} {bs : List β} {cs : List γ}
    (first : List.Forall₂ R as bs) (second : List.Forall₂ S bs cs) :
    List.Forall₂ (fun a c => ∃ b, R a b ∧ S b c) as cs := by
  induction first generalizing cs with
  | nil =>
    cases second
    exact .nil
  | cons head _ ih =>
    cases second with
    | cons head' tail' => exact .cons ⟨_, head, head'⟩ (ih tail')

/-- The string that a key was taken from, if it was one. -/
def Key.text? : Key → Option String
  | .str s => some s
  | _ => Option.none

namespace Value

/-! ## Where a key comes from -/

/-- How a value comes by its key, where its items are nested less than `n` deep. -/
inductive HasKey (h : Heap) (n : Nat) : Value → Key → Prop where
  | none : HasKey h n .none .none
  | bool (b : Bool) : HasKey h n (.bool b) (.bool b)
  | int (i : Integer) : HasKey h n (.int i) (.int i)
  | literal (s : String) : HasKey h n (.text s) (.str s)
  | text {a : Address} {s : String} (read : h.read a = .ok (.text s)) : HasKey h n (.ref a) (.str s)
  | tuple {a : Address} {items : Array Value} {keys : List Key} (read : h.read a = .ok (.tuple items))
      (hashed : List.Forall₂ (fun v key => v.keyWithin h n = .ok key) items.toList keys) :
      HasKey h n (.ref a) (.tuple keys)

variable {h : Heap} {n : Nat} {v w : Value} {key other : Key}

theorem hasKey_of_keyWithin (hashed : v.keyWithin h (n + 1) = .ok key) : HasKey h n v key := by
  cases v with
  | none =>
    cases hashed
    exact .none
  | bool b =>
    cases hashed
    exact .bool b
  | int i =>
    cases hashed
    exact .int i
  | text s =>
    cases hashed
    exact .literal s
  | native id => cases hashed
  | ref a =>
    obtain ⟨c, read, hashed⟩ := Attempt.bind_eq_ok.1 hashed
    cases c with
    | text s =>
      cases hashed
      exact .text read
    | tuple items =>
      obtain ⟨keys, hashedItems, made⟩ := Attempt.bind_eq_ok.1 hashed
      cases made
      exact .tuple read (Attempt.mapM_eq_ok.1 hashedItems)
    | _ => cases hashed

/-- A key stays if the strings and tuples stay that it looks at. They lie in a set of addresses that holds the items
of its tuples. -/
theorem keyWithin_of_kept {h' : Heap} {S : Address → Prop}
    (text : ∀ a s, S a → h.read a = .ok (.text s) → h'.read a = .ok (.text s))
    (tuple : ∀ a items, S a → h.read a = .ok (.tuple items) →
      h'.read a = .ok (.tuple items) ∧ ∀ b, ref b ∈ items.toList → S b)
    (inside : ∀ a, v = ref a → S a) (hashed : v.keyWithin h n = .ok key) : v.keyWithin h' n = .ok key := by
  induction n generalizing v key with
  | zero => cases hashed
  | succ n ih =>
    cases hasKey_of_keyWithin hashed with
    | @text a s read =>
      have read' := text a s (inside a rfl) read
      simp only [keyWithin, read']
      rfl
    | @tuple a items keys read items' =>
      obtain ⟨read', parts⟩ := tuple a items (inside a rfl) read
      simp only [keyWithin, read']
      have items'' : List.Forall₂ (fun v key => v.keyWithin h' n = .ok key) items.toList keys := by
        refine forall₂_imp_of_mem (fun w hw other hashed => ?_) items'
        exact ih (fun b hb => parts b (hb ▸ hw)) hashed
      exact Attempt.bind_eq_ok.2 ⟨_, rfl, Attempt.bind_eq_ok.2 ⟨keys, Attempt.mapM_eq_ok.2 items'', rfl⟩⟩
    | _ => rfl

/-! ## Equality -/

/-- Items with keys are equal one by one exactly if their keys are. -/
theorem allEqual_of_keys
    (agree : ∀ {v w key other}, v.keyWithin h n = .ok key → w.keyWithin h n = .ok other →
      equalWithin h n v w = .ok (decide (key = other)))
    {vs ws : List Value} {keys others : List Key} (hv : List.Forall₂ (fun v key => v.keyWithin h n = .ok key) vs keys)
    (hw : List.Forall₂ (fun w other => w.keyWithin h n = .ok other) ws others) :
    allEqual (equalWithin h n) vs ws = .ok (decide (keys = others)) := by
  induction hv generalizing ws others with
  | nil =>
    cases hw with
    | nil => rfl
    | cons _ _ => rfl
  | @cons v key vs keys head _ ih =>
    cases hw with
    | nil => rfl
    | @cons w other ws others head' tail' =>
      rw [allEqual, agree head head']
      by_cases same : key = other
      · subst same
        rw [decide_eq_true rfl]
        show allEqual (equalWithin h n) vs ws = _
        rw [ih tail']
        simp only [List.cons.injEq, true_and]
      · rw [decide_eq_false same, decide_eq_false fun eq => same (List.cons.inj eq).1]
        rfl

theorem sameItems_of_keys
    (agree : ∀ {v w key other}, v.keyWithin h n = .ok key → w.keyWithin h n = .ok other →
      equalWithin h n v w = .ok (decide (key = other)))
    {vs ws : Array Value} {keys others : List Key}
    (hv : List.Forall₂ (fun v key => v.keyWithin h n = .ok key) vs.toList keys)
    (hw : List.Forall₂ (fun w other => w.keyWithin h n = .ok other) ws.toList others) :
    (if vs.size = ws.size then allEqual (equalWithin h n) vs.toList ws.toList else .ok false) =
      .ok (decide (Key.tuple keys = Key.tuple others)) := by
  have length : vs.size = keys.length := hv.length_eq
  have length' : ws.size = others.length := hw.length_eq
  by_cases sizes : vs.size = ws.size
  · rw [if_pos sizes, allEqual_of_keys agree hv hw]
    simp only [Key.tuple.injEq]
  · have differ : Key.tuple keys ≠ Key.tuple others := by
      intro eq
      obtain rfl := Key.tuple.inj eq
      omega
    rw [if_neg sizes, decide_eq_false differ]

theorem text?_of_hasKey (hashed : HasKey h n v key) : v.text? h = .ok key.text? := by
  cases hashed with
  | text read => simp only [text?, read]; rfl
  | tuple read _ => simp only [text?, read]; rfl
  | _ => rfl

theorem decide_str_eq (s t : String) : decide (Key.str s = Key.str t) = (s == t) := by
  rw [beq_eq_decide, decide_eq_decide, Key.str.injEq]

theorem equalWithin_of_keyWithin (hv : v.keyWithin h n = .ok key) (hw : w.keyWithin h n = .ok other) :
    equalWithin h n v w = .ok (decide (key = other)) := by
  induction n generalizing v w key other with
  | zero => cases hv
  | succ n ih =>
    unfold equalWithin
    by_cases same : v = w
    · subst same
      obtain rfl : key = other := by
        rw [hv] at hw
        exact Except.ok.inj hw
      rw [if_pos rfl, decide_eq_true rfl]
      rfl
    · rw [if_neg same, text?_of_hasKey (hasKey_of_keyWithin hv), text?_of_hasKey (hasKey_of_keyWithin hw)]
      cases hasKey_of_keyWithin hv with
      | none =>
        cases hasKey_of_keyWithin hw with
        | none => exact absurd rfl same
        | _ => rfl
      | bool b =>
        cases hasKey_of_keyWithin hw with
        | bool c =>
          rw [decide_eq_false fun eq => same (congrArg Value.bool (Key.bool.inj eq))]
          rfl
        | _ => rfl
      | int i =>
        cases hasKey_of_keyWithin hw with
        | int j =>
          rw [decide_eq_false fun eq => same (congrArg Value.int (Key.int.inj eq))]
          rfl
        | _ => rfl
      | literal s =>
        cases hasKey_of_keyWithin hw with
        | text read' => exact congrArg Except.ok (decide_str_eq _ _).symm
        | literal t => exact congrArg Except.ok (decide_str_eq _ _).symm
        | _ => rfl
      | text read =>
        cases hasKey_of_keyWithin hw with
        | tuple read' hashed' =>
          simp only [read, read']
          rfl
        | text read' => exact congrArg Except.ok (decide_str_eq _ _).symm
        | literal t => exact congrArg Except.ok (decide_str_eq _ _).symm
        | _ => rfl
      | @tuple _ vs keys read hashed =>
        cases hasKey_of_keyWithin hw with
        | @tuple _ ws others read' hashed' =>
          simp only [read, read']
          exact sameItems_of_keys ih hashed hashed'
        | text read' =>
          simp only [read, read']
          rfl
        | _ => rfl

/-- Two values with keys are equal exactly if they have the same key. -/
theorem equal_of_keys (hv : v.key h = .ok key) (hw : w.key h = .ok other) : v.equal h w = .ok (decide (key = other)) :=
  equalWithin_of_keyWithin hv hw

end Value

end Scriptlet
