import Scriptlet.Call.Bind
import Scriptlet.Proofs.Matching

/-!
# Binding matching arguments

A signature whose defaults are numbered within their count binds matching arguments to matching variables, or
refuses them on both sides with the same exception. No slot and no default is asked for that is not there.
-/

namespace Scriptlet

open Call (Args Filling)

namespace Agree

variable {α β γ δ : Type} {R : α → β → Prop} {S : γ → δ → Prop}

theorem filterMapM {f : α → Attempt (Option γ)} {g : β → Attempt (Option δ)} {as : List α}
    {bs : List β} (h : List.Forall₂ R as bs) (hfg : ∀ a b, R a b → Agree (Option.Rel S) (f a) (g b)) :
    Agree (List.Forall₂ S) (as.filterMapM f) (bs.filterMapM g) := by
  induction h with
  | nil => exact .ok .nil
  | cons hab _ ih =>
    rw [List.filterMapM_cons, List.filterMapM_cons]
    refine (hfg _ _ hab).bind fun o o' ho => ?_
    cases ho with
    | none => exact ih
    | some h => exact ih.bind fun _ _ hs => .ok (.cons h hs)

theorem foldlM {f : γ → α → Attempt γ} {g : δ → β → Attempt δ} {as : List α} {bs : List β} (h : List.Forall₂ R as bs)
    (hfg : ∀ c d a b, S c d → R a b → Agree S (f c a) (g d b)) {c : γ} {d : δ} (hcd : S c d) :
    Agree S (as.foldlM f c) (bs.foldlM g d) := by
  induction h generalizing c d with
  | nil => exact .ok hcd
  | cons hab _ ih =>
    rw [List.foldlM_cons, List.foldlM_cons]
    exact (hfg _ _ _ _ hcd hab).bind fun _ _ h => ih h

end Agree

namespace Code.Signature

/-- The names of all parameters. -/
def names (s : Signature) : List String :=
  s.positional ++ s.rest.toList ++ s.keywordOnly.map Prod.fst ++ s.keywords.toList

/-- The defaults of the keyword-only parameters are numbered within their count. -/
def Numbered (s : Signature) : Prop :=
  ∀ p ∈ s.keywordOnly, ∀ i ∈ p.2, i < (s.keywordOnly.filter (·.2.isSome)).length

theorem mem_names_of_mem_named {s : Signature} {p : String × Option Nat} (hp : p ∈ s.named) : p.1 ∈ s.names := by
  simp only [named, List.mem_append, List.mem_mapIdx, List.mem_map] at hp
  simp only [names, List.mem_append, List.mem_map]
  rcases hp with ⟨i, hi, rfl⟩ | ⟨q, hq, rfl⟩
  · exact .inl (.inl (.inl (List.getElem_mem hi)))
  · exact .inl (.inr ⟨q, hq, rfl⟩)

/-- Each default that a named parameter refers to is there. -/
theorem Numbered.lt_defaultsCount {s : Signature} (hs : s.Numbered) {p : String × Option Nat}
    (hp : p ∈ s.named) {i : Nat} (hi : p.2 = some i) : i < s.defaultsCount := by
  simp only [named, List.mem_append, List.mem_mapIdx, List.mem_map] at hp
  unfold defaultsCount
  rcases hp with ⟨n, hn, rfl⟩ | ⟨q, hq, rfl⟩
  · by_cases hr : s.requiredCount ≤ n
    · simp only [if_pos hr, Option.some.injEq] at hi
      simp only [requiredCount] at hi hr
      omega
    · simp [hr] at hi
  · obtain ⟨j, hj, rfl⟩ := Option.map_eq_some_iff.1 hi
    have := hs q hq j hj
    omega

theorem length_positional_le_named (s : Signature) : s.positional.length ≤ s.named.length := by
  simp [named]

end Code.Signature

/-! ## Filling the parameters -/

/-- Two fillings match. -/
structure Matching.filling (M : Matching) (f g : Filling) : Prop where
  slots : List.Forall₂ (Option.Rel M.value) f.slots g.slots
  collected : f.collected.Matches M.binding g.collected

section filling

open Code (Signature)

variable {M : Matching} {s : Signature} {callee : String} {args args' : Args}

theorem filling_start {vs ws : List Value} (h : M.values vs ws) (n : Nat) : M.filling (.start n vs) (.start n ws) := by
  refine ⟨List.rel_append ?_ ?_, .empty⟩
  · exact List.rel_map (fun _ _ hv => .some hv) h
  · rw [h.length_eq]
    exact List.forall₂_same.2 fun o ho => by rw [List.eq_of_mem_replicate ho]; exact .none

theorem agree_takeKeyword {f g : Filling} (hfg : M.filling f g)
    (hlen : f.slots.length = s.named.length) {kv kv' : String × Value} (hkv : OrderedMap.EntryMatch M.binding kv kv') :
    Agree (fun f g => M.filling f g ∧ f.slots.length = s.named.length)
      (s.takeKeyword callee f kv) (s.takeKeyword callee g kv') := by
  obtain ⟨x, v⟩ := kv
  obtain ⟨y, w⟩ := kv'
  obtain ⟨rfl, hx, hv⟩ := hkv
  simp only [Signature.takeKeyword]
  cases hi : s.named.findIdx? fun p => decide (p.1 = x) with
  | some i =>
    obtain ⟨hlt, -⟩ := List.findIdx?_eq_some_iff_getElem.1 hi
    have hlt' : i < g.slots.length := by rw [← hfg.slots.length_eq, hlen]; exact hlt
    rw [← hlen] at hlt
    have ho := hfg.slots.get hlt hlt'
    simp only [List.get_eq_getElem] at ho
    simp only [List.getElem?_eq_getElem hlt, List.getElem?_eq_getElem hlt']
    generalize f.slots[i] = o at ho ⊢
    generalize g.slots[i] = o' at ho ⊢
    cases ho with
    | none => exact .ok ⟨⟨Matching.forall₂_set hfg.slots i (.some hv), hfg.collected⟩, by simpa⟩
    | some _ => exact .raise _
  | none =>
    simp only [hfg.collected.contains_eq]
    split
    · exact .raise _
    · split
      · exact .raise _
      · exact .ok ⟨⟨hfg.slots, hfg.collected.insert ⟨hx, hv⟩⟩, hlen⟩

theorem agree_fill (h : M.args args args') :
    Agree (fun f g => M.filling f g ∧ f.slots.length = s.named.length)
      (s.fill callee args) (s.fill callee args') := by
  unfold Signature.fill
  simp only [← h.positional.length_eq]
  split
  · exact .raise _
  · refine Agree.foldlM h.keywords (fun f g _ _ hfg hkv => agree_takeKeyword hfg.1 hfg.2 hkv)
      ⟨filling_start (List.forall₂_take _ h.positional) _, ?_⟩
    have := s.length_positional_le_named
    simp only [Filling.start, List.length_append, List.length_map, List.length_take,
      List.length_replicate]
    omega

/-- The slots of a filling beside their parameters. -/
theorem forall₂_zip_slots {slots slots' : List (Option Value)}
    (h : List.Forall₂ (Option.Rel M.value) slots slots') (ps : List (String × Option Nat)) :
    List.Forall₂ (fun e f => e.1 ∈ ps ∧ e.1 = f.1 ∧ e.2.Rel M.value f.2) (ps.zip slots)
      (ps.zip slots') := by
  induction ps generalizing slots slots' with
  | nil => exact .nil
  | cons p ps ih =>
    cases h with
    | nil => exact .nil
    | cons ho h =>
      refine .cons ⟨by simp, rfl, ho⟩ (List.Forall₂.imp (fun e f he => ?_) (ih h))
      exact ⟨List.mem_cons_of_mem _ he.1, he.2⟩

theorem missing_eq {slots slots' : List (Option Value)}
    (h : List.Forall₂ (Option.Rel M.value) slots slots') : s.missing slots = s.missing slots' := by
  have heq : List.Forall₂ Eq (s.missing slots) (s.missing slots') := by
    refine List.rel_filterMap (fun e f he => ?_) (forall₂_zip_slots h s.named)
    obtain ⟨⟨x, i⟩, o⟩ := e
    obtain ⟨q, o'⟩ := f
    obtain ⟨-, rfl, ho⟩ := he
    cases ho with
    | none => cases i <;> constructor; rfl
    | some _ => cases i <;> exact .none
  rwa [List.forall₂_eq_eq_eq] at heq

/-- The parameters get the arguments that fill them, or their defaults. -/
theorem agree_complete (hs : s.Numbered) (hw : ∀ x ∈ s.names, M.word x) {ds ds' : List Value}
    (hd : M.values ds ds') (hlen : ds.length = s.defaultsCount) {slots slots' : List (Option Value)}
    (h : List.Forall₂ (Option.Rel M.value) slots slots') :
    Agree M.bindings (s.complete ds slots) (s.complete ds' slots') := by
  refine Agree.filterMapM (forall₂_zip_slots h s.named) fun e f he => ?_
  obtain ⟨⟨x, i⟩, o⟩ := e
  obtain ⟨q, o'⟩ := f
  obtain ⟨hp, rfl, ho⟩ := he
  have hx : M.word x := hw x (Signature.mem_names_of_mem_named hp)
  cases ho with
  | some hv => exact .ok (.some ⟨rfl, hx, hv⟩)
  | none =>
    cases i with
    | none => exact .ok .none
    | some i =>
      have hi : i < ds.length := hlen ▸ hs.lt_defaultsCount hp rfl
      have hi' : i < ds'.length := hd.length_eq ▸ hi
      simp only [Call.defaultAt, List.getElem?_eq_getElem hi, List.getElem?_eq_getElem hi']
      exact .ok (.some ⟨rfl, hx, hd.get hi hi'⟩)

theorem agree_settle (hs : s.Numbered) (hw : ∀ x ∈ s.names, M.word x) {ds ds' : List Value}
    (hd : M.values ds ds') (hlen : ds.length = s.defaultsCount) (h : M.args args args') :
    Agree (fun p q => M.bindings p.1 q.1 ∧ M.bindings p.2 q.2) (s.settle callee ds args)
      (s.settle callee ds' args') := by
  refine (agree_fill h).bind fun f g hfg => ?_
  refine (agree_complete hs hw hd hlen hfg.1.slots).bind fun es fs he => ?_
  rw [← missing_eq hfg.1.slots]
  split
  · exact .ok ⟨he, hfg.1.collected⟩
  · exact .raise _

theorem forall₂_zip_names {xs : List String} (hw : ∀ x ∈ xs, M.word x) {vs ws : List Value}
    (h : M.values vs ws) : M.bindings (xs.zip vs) (xs.zip ws) := by
  induction xs generalizing vs ws with
  | nil => exact .nil
  | cons x xs ih =>
    cases h with
    | nil => exact .nil
    | cons hv h =>
      exact .cons ⟨rfl, hw x (by simp), hv⟩ (ih (fun y hy => hw y (List.mem_cons_of_mem _ hy)) h)

/-- The direct way of binding positional arguments. -/
theorem agree_bindPositional (hw : ∀ x ∈ s.names, M.word x) {ds ds' : List Value}
    (hd : M.values ds ds') (hlen : ds.length = s.defaultsCount) {vs ws : List Value} (h : M.values vs ws) :
    Agree M.bindings (s.bindPositional callee ds vs) (s.bindPositional callee ds' ws) := by
  unfold Signature.bindPositional
  simp only [← h.length_eq, ← hd.length_eq]
  split
  · exact .raise _
  split
  · exact .raise _
  split
  · rename_i hdef
    simp only [hlen, Signature.defaultsCount] at hdef
    omega
  · refine .ok (forall₂_zip_names (fun x hx => hw x (by simp [Signature.names, hx])) ?_)
    exact List.rel_append h (List.forall₂_drop _ (List.forall₂_take _ hd))

end filling

end Scriptlet
