import Mathlib.Data.List.Nodup
import Scriptlet.Proofs.Binding
import Scriptlet.Proofs.Code.Needs

/-!
# Well-formed definitions

What holds of the code that resolution leaves in the table of functions. Code inside `n` functions reads names
bound at most `n` levels up, assigns only to the function it stands in (or to the module, outside of all
functions), holds known words, and makes functions of the table with the right number of defaults.
-/

namespace Scriptlet.Code

/-- What code inside `n` functions may need, given a table of functions and the words that are known. -/
def Allowed (table : Array Function) (word : String → Prop) (n : Nat) : Need → Prop
  | .load x =>
    word x.text ∧
      match x.scope with
      | .own => 0 < n
      | .outer levels => 0 < levels ∧ levels < n
      | .global => True
  | .store x => word x.text ∧ x.scope = if n = 0 then .global else .own
  | .word s => word s
  | .make id defaults =>
    ∃ f, table[id.index]? = some f ∧ f.signature.defaultsCount = defaults ∧ f.nested = decide (0 < n)

/-- A function of the table that stands inside `n` others is well-formed, and so are all that its body makes,
which stand inside one more. -/
inductive Defined (table : Array Function) (word : String → Prop) : Nat → FunctionId → Prop where
  | intro {n : Nat} {id : FunctionId} {f : Function} (found : table[id.index]? = some f)
    (nested : f.nested = decide (0 < n)) (name : word f.name)
    (params : ∀ x ∈ f.signature.names, word x) (numbered : f.signature.Numbered)
    (needs : ∀ need ∈ f.body.needs, Allowed table word (n + 1) need)
    (made : ∀ g ∈ f.body.made, Defined table word (n + 1) g) : Defined table word n id

/-- The functions that the functions of a table make. -/
def madeIn (table : List Function) : List FunctionId := table.flatMap (·.body.made)

/-- The body of one function of a table makes another one. -/
def Encloses (table : Array Function) (g f : FunctionId) : Prop :=
  ∃ F, table[g.index]? = some F ∧ f ∈ F.body.made

/-- The functions that enclose a function of a table, innermost first; a function that is not nested has
none. -/
inductive EnclosedBy (table : Array Function) : FunctionId → List FunctionId → Prop where
  | outermost {f : FunctionId} {F : Function} (found : table[f.index]? = some F)
    (nested : F.nested = false) : EnclosedBy table f []
  | inside {f g : FunctionId} {gs : List FunctionId} {F : Function}
    (found : table[f.index]? = some F) (nested : F.nested = true) (encloses : Encloses table g f)
    (rest : EnclosedBy table g gs) : EnclosedBy table f (g :: gs)

/-! ## Growing tables -/

/-- Every function of the first table stands in the second at the same place. -/
def Extends (table table' : Array Function) : Prop :=
  ∀ ⦃i : Nat⦄ ⦃f : Function⦄, table[i]? = some f → table'[i]? = some f

theorem Extends.refl (table : Array Function) : Extends table table :=
  fun _ _ hf => hf

theorem Extends.trans {t t' t'' : Array Function} (h : Extends t t') (h' : Extends t' t'') : Extends t t'' :=
  fun _ _ hf => h' (h hf)

theorem Extends.size_le {t t' : Array Function} (h : Extends t t') : t.size ≤ t'.size := by
  by_contra hlt
  have found := h (Array.getElem?_eq_getElem (Nat.lt_of_not_le hlt))
  exact Nat.lt_irrefl _ (Array.getElem?_eq_some_iff.1 found).1

theorem extends_of_toList {table table' : Array Function} {new : List Function}
    (h : table'.toList = table.toList ++ new) : Extends table table' := by
  intro i f hf
  rw [← Array.getElem?_toList] at hf ⊢
  rw [h, List.getElem?_append_left (List.getElem?_eq_some_iff.1 hf).1, hf]

section mono

variable {table table' : Array Function} {word word' : String → Prop}

theorem Allowed.mono (ht : Extends table table') (hw : ∀ x, word x → word' x) {n : Nat} {need : Need}
    (h : Allowed table word n need) : Allowed table' word' n need := by
  cases need with
  | load x => exact ⟨hw _ h.1, h.2⟩
  | store x => exact ⟨hw _ h.1, h.2⟩
  | word s => exact hw s h
  | make id defaults =>
    obtain ⟨f, hf, rest⟩ := h
    exact ⟨f, ht hf, rest⟩

theorem Defined.mono (ht : Extends table table') (hw : ∀ x, word x → word' x) {n : Nat}
    {id : FunctionId} (h : Defined table word n id) : Defined table' word' n id := by
  induction h with
  | intro found nested name params numbered needs _ ih =>
    exact .intro (ht found) nested (hw _ name) (fun x hx => hw x (params x hx)) numbered
      (fun need h => (needs need h).mono ht hw) ih

theorem Encloses.mono (ht : Extends table table') {g f : FunctionId} (h : Encloses table g f) :
    Encloses table' g f := by
  obtain ⟨F, hF, hf⟩ := h
  exact ⟨F, ht hF, hf⟩

end mono

/-! ## One encloser -/

/-- No function of the table is made in two places. -/
theorem Encloses.unique {table : Array Function} (hn : (madeIn table.toList).Nodup)
    {g g' f : FunctionId} (h : Encloses table g f) (h' : Encloses table g' f) : g = g' := by
  obtain ⟨F, hF, hf⟩ := h
  obtain ⟨F', hF', hf'⟩ := h'
  rw [← Array.getElem?_toList] at hF hF'
  obtain ⟨hi, rfl⟩ := List.getElem?_eq_some_iff.1 hF
  obtain ⟨hj, rfl⟩ := List.getElem?_eq_some_iff.1 hF'
  have apart := List.pairwise_iff_getElem.1 (List.nodup_flatMap.1 hn).2
  rcases Nat.lt_trichotomy g.index g'.index with hlt | heq | hlt
  · exact absurd hf' (List.disjoint_left.1 (apart _ _ hi hj hlt) hf)
  · cases g; cases g'; simp_all
  · exact absurd hf (List.disjoint_left.1 (apart _ _ hj hi hlt) hf')

theorem EnclosedBy.unique {table : Array Function} (hn : (madeIn table.toList).Nodup)
    {f : FunctionId} {gs gs' : List FunctionId} (h : EnclosedBy table f gs)
    (h' : EnclosedBy table f gs') : gs = gs' := by
  induction h generalizing gs' with
  | outermost found nested =>
    cases h' with
    | outermost => rfl
    | inside found' nested' => simp_all
  | inside found nested encloses _ ih =>
    cases h' with
    | outermost found' nested' => simp_all
    | inside _ _ encloses' rest' =>
      obtain rfl := encloses.unique hn encloses'
      rw [ih rest']

end Scriptlet.Code
