import Scriptlet.Proofs.Binding

/-!
# Signatures of accepted parameter lists

The signature made of an accepted parameter list names only parameters of the list, wants as many default
values as the list has defaults, and numbers them within that count.
-/

namespace Scriptlet.Code

open Program (Param)

namespace Signature

theorem map_fst_numberDefaults (n : Nat) (ps : List (String × Bool)) :
    (numberDefaults n ps).map Prod.fst = ps.map Prod.fst := by
  induction ps generalizing n with
  | nil => rfl
  | cons p ps ih =>
    obtain ⟨x, b⟩ := p
    cases b <;> simp [numberDefaults, ih]

theorem length_filter_numberDefaults (n : Nat) (ps : List (String × Bool)) :
    ((numberDefaults n ps).filter (·.2.isSome)).length = (ps.filter (·.2)).length := by
  induction ps generalizing n with
  | nil => rfl
  | cons p ps ih =>
    obtain ⟨x, b⟩ := p
    cases b <;> simp [numberDefaults, ih]

theorem lt_of_mem_numberDefaults {n : Nat} {ps : List (String × Bool)} {p : String × Option Nat}
    (hp : p ∈ numberDefaults n ps) {i : Nat} (hi : p.2 = some i) : i < n + (ps.filter (·.2)).length := by
  induction ps generalizing n with
  | nil => simp [numberDefaults] at hp
  | cons q ps ih =>
    obtain ⟨x, b⟩ := q
    cases b with
    | false =>
      rcases List.mem_cons.1 hp with rfl | hp
      · simp at hi
      · simpa using ih hp
    | true =>
      rcases List.mem_cons.1 hp with rfl | hp
      · cases hi
        simp
      · have := ih hp
        simp only [List.filter_cons_of_pos, List.length_cons]
        omega

theorem numbered_ofGroups (g : ParamGroups) : (ofGroups g).Numbered := by
  intro p hp i hi
  have := lt_of_mem_numberDefaults hp (Option.mem_def.1 hi)
  simpa [ofGroups, length_filter_numberDefaults] using this

end Signature

namespace ParamGroups

/-- The names of all parameters. -/
def names (g : ParamGroups) : List String :=
  g.positional.map Prod.fst ++ g.rest.toList ++ g.keywordOnly.map Prod.fst ++ g.keywords.toList

/-- The number of parameters with a default. -/
def defaultsCount (g : ParamGroups) : Nat :=
  (g.positional.filter (·.2)).length + (g.keywordOnly.filter (·.2)).length

theorem names_ofGroups (g : ParamGroups) : (Signature.ofGroups g).names = g.names := by
  simp [Signature.ofGroups, Signature.names, names, Signature.map_fst_numberDefaults]

theorem defaultsCount_ofGroups (g : ParamGroups) : (Signature.ofGroups g).defaultsCount = g.defaultsCount := by
  simp [Signature.ofGroups, Signature.defaultsCount, defaultsCount,
    Signature.length_filter_numberDefaults]

end ParamGroups

/-- Whether a parameter brings a default. -/
def hasDefault : Param → Bool
  | .defaulted _ _ => true
  | _ => false

namespace ParamScan

variable {function : String}

/-- The scan `s'` has at most the name `x?` and exactly `n` defaults more than `s`. -/
def Adds (s : ParamScan) (x? : Option String) (n : Nat) (s' : ParamScan) : Prop :=
  (∀ x ∈ s'.groups.names, x ∈ s.groups.names ∨ x? = some x) ∧
    s'.groups.defaultsCount = s.groups.defaultsCount + n

theorem adds_of_plain {s s' : ParamScan} {x : String} {defaulted : Bool}
    (h : s.plain function x defaulted = .ok s') : s.Adds (some x) defaulted.toNat s' := by
  unfold plain at h
  split at h
  · cases h
    refine ⟨fun y hy => ?_, ?_⟩
    · simp only [ParamGroups.names, List.map_append, List.mem_append, List.map_cons] at hy ⊢
      grind
    · cases defaulted <;> simp [ParamGroups.defaultsCount]
      omega
  · split at h
    · cases h
    · cases h
      refine ⟨fun y hy => ?_, ?_⟩
      · simp only [ParamGroups.names, List.map_append, List.mem_append, List.map_cons] at hy ⊢
        grind
      · cases defaulted <;> simp [ParamGroups.defaultsCount]
        omega

/-- One more parameter adds its name and its default. -/
theorem adds_of_place {s s' : ParamScan} {p : Param}
    (h : s.place function p = .ok s') : s.Adds p.name? (hasDefault p).toNat s' := by
  cases p with
  | required x => exact adds_of_plain h
  | defaulted x value => exact adds_of_plain h
  | rest x =>
    simp only [place] at h
    split at h
    · cases h
    · cases h
      refine ⟨fun y hy => ?_, rfl⟩
      simp only [ParamGroups.names, List.mem_append, Param.name?] at hy ⊢
      grind
  | bareStar =>
    simp only [place] at h
    split at h
    · cases h
    · cases h
      exact ⟨fun y hy => .inl hy, rfl⟩
  | keywords x =>
    cases h
    refine ⟨fun y hy => ?_, rfl⟩
    simp only [ParamGroups.names, List.mem_append, Param.name?] at hy ⊢
    grind

theorem adds_of_step {s s' : ParamScan} {p : Param}
    (h : s.step function p = .ok s') : s.Adds p.name? (hasDefault p).toNat s' := by
  unfold step at h
  split at h
  · cases h
  · split at h
    · exact adds_of_place h
    · split at h
      · cases h
      · have added := adds_of_place h
        exact added

theorem adds_of_foldlM {params : List Param} {s s' : ParamScan} (h : params.foldlM (step function) s = .ok s') :
    (∀ x ∈ s'.groups.names, x ∈ s.groups.names ∨ x ∈ params.filterMap (·.name?)) ∧
      s'.groups.defaultsCount = s.groups.defaultsCount + params.countP hasDefault := by
  induction params generalizing s with
  | nil =>
    cases h
    exact ⟨fun x hx => .inl hx, rfl⟩
  | cons p params ih =>
    rw [List.foldlM_cons] at h
    cases hp : step function s p with
    | error e => simp [hp, bind, Except.bind] at h
    | ok s₁ =>
      simp only [hp, bind, Except.bind] at h
      have head := adds_of_step hp
      have tail := ih h
      refine ⟨fun x hx => ?_, ?_⟩
      · rcases tail.1 x hx with hx | hx
        · rcases head.1 x hx with hx | hx
          · exact .inl hx
          · exact .inr (List.mem_filterMap.2 ⟨p, by simp, hx⟩)
        · obtain ⟨q, hq, hx⟩ := List.mem_filterMap.1 hx
          exact .inr (List.mem_filterMap.2 ⟨q, List.mem_cons_of_mem _ hq, hx⟩)
      · rw [tail.2, head.2, List.countP_cons]
        cases hasDefault p
        · simp
        · simp
          omega

end ParamScan

/-- The signature of an accepted parameter list. -/
theorem signature_of_ofParams {function : String} {params : List Param} {g : ParamGroups}
    (h : ParamGroups.ofParams function params = .ok g) :
    (∀ x ∈ (Signature.ofGroups g).names, x ∈ params.filterMap (·.name?)) ∧
      (Signature.ofGroups g).defaultsCount = params.countP hasDefault := by
  unfold ParamGroups.ofParams at h
  cases hf : params.foldlM (ParamScan.step function) {} with
  | error e => simp [hf, bind, Except.bind] at h
  | ok s =>
    have scan := ParamScan.adds_of_foldlM hf
    have hg : s.groups = g := by
      simp only [hf, bind, Except.bind] at h
      split at h
      · cases h
      · exact Except.ok.inj h
    subst hg
    rw [ParamGroups.names_ofGroups, ParamGroups.defaultsCount_ofGroups]
    refine ⟨fun x hx => (scan.1 x hx).resolve_left ?_, by simpa [ParamGroups.defaultsCount] using scan.2⟩
    simp [ParamGroups.names]

end Scriptlet.Code
