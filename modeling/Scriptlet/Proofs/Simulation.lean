import Mathlib.Data.List.Forall2
import Scriptlet.Fault.Failure

/-!
# Simulations

Two computations are compared step by step: from states that belong together they must both give results that
belong together, or both raise the same exception, and again reach states that belong together. A broken table
is never allowed.

What belongs together is said by a *world*, which may only grow while the two computations go on. Comparing a
computation with itself says what it preserves, so invariants are simulations too.
-/

namespace Scriptlet

/-! ## Computations without effects -/

/-- Two attempts end alike: with related results, or with the same exception. -/
inductive Agree {α β : Type} (R : α → β → Prop) : Attempt α → Attempt β → Prop where
  | ok {a : α} {b : β} (h : R a b) : Agree R (.ok a) (.ok b)
  | raised (cause : Fault.Cause) : Agree R (.error (.raised cause)) (.error (.raised cause))

namespace Agree

variable {α β γ δ : Type} {R : α → β → Prop} {S : γ → δ → Prop}

theorem pure {a : α} {b : β} (h : R a b) : Agree R (Pure.pure a) (Pure.pure b) := .ok h

theorem raise (cause : Fault.Cause) : Agree R (Scriptlet.raise cause) (Scriptlet.raise cause) :=
  .raised _

theorem bind {x : Attempt α} {y : Attempt β} {f : α → Attempt γ} {g : β → Attempt δ}
    (h : Agree R x y) (hfg : ∀ a b, R a b → Agree S (f a) (g b)) : Agree S (x >>= f) (y >>= g) := by
  cases h with
  | ok h => exact hfg _ _ h
  | raised e => exact .raised e

theorem imp {T : α → β → Prop} {x : Attempt α} {y : Attempt β} (h : Agree R x y)
    (hRT : ∀ a b, R a b → T a b) : Agree T x y := by
  cases h with
  | ok h => exact .ok (hRT _ _ h)
  | raised e => exact .raised e

theorem mapM {f : α → Attempt γ} {g : β → Attempt δ} {as : List α} {bs : List β}
    (h : List.Forall₂ R as bs) (hfg : ∀ a b, R a b → Agree S (f a) (g b)) :
    Agree (List.Forall₂ S) (as.mapM f) (bs.mapM g) := by
  induction h with
  | nil => exact .ok .nil
  | cons hab _ ih =>
    rw [List.mapM_cons, List.mapM_cons]
    exact (hfg _ _ hab).bind fun _ _ h => ih.bind fun _ _ hs => .ok (.cons h hs)

theorem and_ok {x : Attempt α} {y : Attempt β} (h : Agree R x y) : Agree (fun a b => R a b ∧ x = .ok a) x y := by
  cases h with
  | ok h => exact .ok ⟨h, rfl⟩
  | raised e => exact .raised e

theorem eq_right {x y : Attempt α} (h : Agree Eq x y) : x = y := by
  cases h with
  | ok h => rw [h]
  | raised e => rfl

end Agree

/-! ## Computations on a state -/

/-- How the states of two machines belong together, in each of some worlds. -/
structure Simulation (σ τ W : Type) where
  /-- The second world may follow the first one. -/
  le : W → W → Prop
  refl : ∀ w, le w w
  trans : ∀ {u v w}, le u v → le v w → le u w
  /-- The states that belong together in a world. -/
  states : W → σ → τ → Prop

namespace Simulation

variable {σ τ W : Type} {C : Simulation σ τ W} {α β γ δ : Type} {R T : W → α → β → Prop}
  {S : W → γ → δ → Prop} {w : W}

/-- Two runs have ended alike: with related results or the same exception, and with states that belong
together in a world that may follow `w`. -/
inductive Ends (C : Simulation σ τ W) (w : W) (R : W → α → β → Prop) :
    EStateM.Result Failure σ α → EStateM.Result Failure τ β → Prop where
  | ok {w' : W} {a : α} {b : β} {s : σ} {t : τ} (le : C.le w w') (states : C.states w' s t)
      (h : R w' a b) : Ends C w R (.ok a s) (.ok b t)
  | raised {w' : W} {s : σ} {t : τ} (e : Exception) (le : C.le w w') (states : C.states w' s t) :
      Ends C w R (.error (.raised e) s) (.error (.raised e) t)

/-- From all states that belong together, the two computations end alike. -/
def Runs (C : Simulation σ τ W) (w : W) (R : W → α → β → Prop) (x : EStateM Failure σ α)
    (y : EStateM Failure τ β) : Prop :=
  ∀ ⦃s t⦄, C.states w s t → C.Ends w R (x s) (y t)

theorem Ends.from_le {v : W} {r : EStateM.Result Failure σ α} {q : EStateM.Result Failure τ β}
    (hv : C.le v w) (h : C.Ends w R r q) : C.Ends v R r q := by
  cases h with
  | ok le states h => exact .ok (C.trans hv le) states h
  | raised e le states => exact .raised e (C.trans hv le) states

theorem Ends.imp {r : EStateM.Result Failure σ α} {q : EStateM.Result Failure τ β}
    (h : C.Ends w R r q) (hRT : ∀ w' a b, C.le w w' → R w' a b → T w' a b) : C.Ends w T r q := by
  cases h with
  | ok le states h => exact .ok le states (hRT _ _ _ le h)
  | raised e le states => exact .raised e le states

namespace Runs

theorem pure {a : α} {b : β} (h : R w a b) : C.Runs w R (Pure.pure a) (Pure.pure b) :=
  fun _ _ hst => .ok (C.refl w) hst h

theorem throw (e : Exception) : C.Runs w R (MonadExcept.throw (.raised e)) (MonadExcept.throw (.raised e)) :=
  fun _ _ hst => .raised _ (C.refl w) hst

theorem raise (cause : Fault.Cause) : C.Runs w R (Scriptlet.raise cause) (Scriptlet.raise cause) :=
  throw _

theorem bind {x : EStateM Failure σ α} {y : EStateM Failure τ β} {f : α → EStateM Failure σ γ}
    {g : β → EStateM Failure τ δ} (h : C.Runs w R x y)
    (hfg : ∀ w' a b, C.le w w' → R w' a b → C.Runs w' S (f a) (g b)) : C.Runs w S (x >>= f) (y >>= g) := by
  intro s t hst
  have hxy := h hst
  show C.Ends w S (EStateM.bind x f s) (EStateM.bind y g t)
  unfold EStateM.bind
  generalize x s = r at hxy ⊢
  generalize y t = q at hxy ⊢
  cases hxy with
  | ok le states h => exact (hfg _ _ _ le h states).from_le le
  | raised e le states => exact .raised e le states

theorem imp {x : EStateM Failure σ α} {y : EStateM Failure τ β} (h : C.Runs w R x y)
    (hRT : ∀ w' a b, C.le w w' → R w' a b → T w' a b) : C.Runs w T x y :=
  fun _ _ hst => (h hst).imp hRT

/-- The results of a computation are its results. -/
theorem and_ok {x : EStateM Failure σ α} {y : EStateM Failure τ β} (h : C.Runs w R x y) :
    C.Runs w (fun w' a b => R w' a b ∧ ∃ s s', x s = .ok a s') x y := by
  intro s t hst
  have hxy := h hst
  generalize y t = q at hxy ⊢
  cases hx : x s with
  | ok a s' =>
    rw [hx] at hxy
    cases hxy with
    | ok le states h => exact .ok le states ⟨h, s, s', hx⟩
  | error e s' =>
    rw [hx] at hxy
    cases hxy with
    | raised e le states => exact .raised e le states

/-- Running the same computations over two lists of related inputs. -/
theorem mapM {ι κ : Type} {Q : W → ι → κ → Prop} {f : ι → EStateM Failure σ α}
    {g : κ → EStateM Failure τ β} (hQ : ∀ {u v i j}, C.le u v → Q u i j → Q v i j)
    (hR : ∀ {u v a b}, C.le u v → R u a b → R v a b) {is : List ι} {js : List κ}
    (hfg : ∀ i ∈ is, ∀ {w' : W} {j : κ}, Q w' i j → C.Runs w' R (f i) (g j)) (h : List.Forall₂ (Q w) is js) :
    C.Runs w (fun w' => List.Forall₂ (R w')) (is.mapM f) (js.mapM g) := by
  induction is generalizing w js with
  | nil =>
    cases h
    exact .pure .nil
  | cons i is ih =>
    cases h with
    | cons hij h =>
      rw [List.mapM_cons, List.mapM_cons]
      refine (hfg i (by simp) hij).bind fun w₁ a b hw₁ hab => ?_
      refine (ih (fun i hi => hfg i (List.mem_cons_of_mem _ hi))
        (h.imp fun _ _ => hQ hw₁)).bind fun w₂ as bs hw₂ hs => ?_
      exact .pure (.cons (hR hw₂ hab) hs)

/-- Running computations over a list, each on the result of the one before. -/
theorem foldlM {ι : Type} {f : α → ι → EStateM Failure σ α} {g : β → ι → EStateM Failure τ β}
    {is : List ι} (hfg : ∀ i ∈ is, ∀ {w' : W} {a : α} {b : β}, R w' a b → C.Runs w' R (f a i) (g b i))
    {a : α} {b : β} (hab : R w a b) : C.Runs w R (is.foldlM f a) (is.foldlM g b) := by
  induction is generalizing w a b with
  | nil => exact .pure hab
  | cons i is ih =>
    rw [List.foldlM_cons, List.foldlM_cons]
    refine (hfg i (by simp) hab).bind fun w' a' b' _ hab' => ?_
    exact ih (fun i hi => hfg i (List.mem_cons_of_mem _ hi)) hab'

end Runs

end Simulation

end Scriptlet
