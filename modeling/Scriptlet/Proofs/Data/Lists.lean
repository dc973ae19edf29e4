import Mathlib.Data.List.Forall2
import Scriptlet.Fault.Failure

/-!
# Lists

Lists whose items are related, and what is done for the items of a list one after another when each of them may fail.
-/

namespace Scriptlet

variable {α β : Type} {as : List α} {bs : List β}

theorem map_eq_self {f : α → α} (h : ∀ a ∈ as, f a = a) : as.map f = as :=
  (List.map_congr_left h).trans (List.map_id as)

theorem lookup_eq_none_iff_not_mem {es : List (String × α)} {x : String} :
    es.lookup x = none ↔ x ∉ es.map Prod.fst := by
  simp only [List.lookup_eq_none_iff, List.mem_map, bne_iff_ne, ne_eq, not_exists, not_and]
  exact ⟨fun h p hp e => h p hp e.symm, fun h p hp e => h p hp e.symm⟩

theorem exists_of_mem_left {R : α → β → Prop} (related : List.Forall₂ R as bs) {a : α}
    (ha : a ∈ as) : ∃ b ∈ bs, R a b := by
  induction related with
  | nil => cases ha
  | @cons a' b as bs head _ ih =>
    rcases List.mem_cons.1 ha with rfl | ha
    · exact ⟨b, List.mem_cons_self, head⟩
    · obtain ⟨b', hb, related⟩ := ih ha
      exact ⟨b', List.mem_cons_of_mem b hb, related⟩

/-- There is a list of results exactly if there is a result for each item, where `pure` gives results and a composition
has one only if its parts have. -/
theorem mapM_eq_pure {m : Type → Type} [Monad m] [LawfulMonad m]
    (inj : ∀ {α : Type} {a b : α}, (pure a : m α) = pure b → a = b)
    (parts : ∀ {α β : Type} {x : m α} {f : α → m β} {b : β}, x >>= f = pure b ↔ ∃ a, x = pure a ∧ f a = pure b)
    {f : α → m β} : as.mapM f = pure bs ↔ List.Forall₂ (fun a b => f a = pure b) as bs := by
  induction as generalizing bs with
  | nil =>
    rw [List.mapM_nil, List.forall₂_nil_left_iff]
    exact ⟨fun h => (inj h).symm, fun h => by rw [h]⟩
  | cons a as ih =>
    rw [List.mapM_cons, parts]
    constructor
    · rintro ⟨b, hb, ran⟩
      obtain ⟨bs', hbs, made⟩ := parts.1 ran
      obtain rfl := inj made
      exact .cons hb (ih.1 hbs)
    · rintro (_ | ⟨hb, hbs⟩)
      exact ⟨_, hb, parts.2 ⟨_, ih.2 hbs, rfl⟩⟩

theorem mapM_eq_some {f : α → Option β} : as.mapM f = some bs ↔ List.Forall₂ (fun a b => f a = some b) as bs :=
  mapM_eq_pure Option.some.inj Option.bind_eq_some_iff

namespace Attempt

variable {f : α → Attempt β} {as : List α}

theorem bind_eq_ok {x : Attempt α} {b : β} : x >>= f = .ok b ↔ ∃ a, x = .ok a ∧ f a = .ok b := by
  cases x <;> simp [Bind.bind, Except.bind]

theorem mapM_eq_ok {bs : List β} : as.mapM f = .ok bs ↔ List.Forall₂ (fun a b => f a = .ok b) as bs :=
  mapM_eq_pure Except.ok.inj bind_eq_ok

/-- What is done for each item only depends on what is done for the items that are there. -/
theorem mapM_congr {g : α → Attempt β} (same : ∀ a ∈ as, f a = g a) : as.mapM f = as.mapM g := by
  induction as with
  | nil => rfl
  | cons a as ih =>
    rw [List.forall_mem_cons] at same
    rw [List.mapM_cons, List.mapM_cons, same.1, ih same.2]

theorem exists_mapM (each : ∀ a ∈ as, ∃ b, f a = .ok b) : ∃ bs, as.mapM f = .ok bs := by
  induction as with
  | nil => exact ⟨[], rfl⟩
  | cons a as ih =>
    obtain ⟨⟨b, hb⟩, rest⟩ := List.forall_mem_cons.1 each
    obtain ⟨bs, hbs⟩ := ih rest
    exact ⟨b :: bs, by rw [List.mapM_cons, hb, hbs]; rfl⟩

/-- Collecting results of which each is known under some condition. -/
theorem filterMapM_eq_ok {f : α → Attempt (Option β)} {g : α → Option β} {P : α → Prop}
    (hf : ∀ a b, f a = .ok b ↔ b = g a ∧ P a) {bs : List β} :
    as.filterMapM f = .ok bs ↔ bs = as.filterMap g ∧ ∀ a ∈ as, P a := by
  induction as generalizing bs with
  | nil => simp [List.filterMapM_nil, pure, Except.pure, eq_comm]
  | cons a as ih =>
    rw [List.filterMapM_cons, bind_eq_ok]
    simp only [hf, List.filterMap_cons, List.forall_mem_cons, and_assoc, exists_eq_left]
    cases g a with
    | none => rw [ih, and_left_comm]
    | some b =>
      simp only [bind_eq_ok, ih, and_assoc, exists_eq_left]
      exact ⟨fun ⟨holds, rest, made⟩ => ⟨(Except.ok.inj made).symm, holds, rest⟩,
        fun ⟨made, holds, rest⟩ => ⟨holds, rest, congrArg _ made.symm⟩⟩

end Attempt

end Scriptlet
