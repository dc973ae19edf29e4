import Scriptlet.Proofs.Content.Equality

/-!
# Equality of contents

Equality in the language decides whether two values have the same content, also where they are cyclic.
-/

namespace Scriptlet

open Budget (maxDataDepth)
open Heap (Cell)
open Attempt (Right)

/-- In a closed heap, whether it has cycles or not, equality decides whether two values have the same content: where it
answers, it is right. So its answers are those of an equivalence. It only fails for nesting, and then both values are
nested too deep. -/
theorem equality_decides_content {h : Heap} {u v : Value} (closed : h.Closed) (hu : u.LiveIn h) (hv : v.LiveIn h) :
    (∀ b, u.equal h v = .ok b → (b = true ↔ u.SameContent h v)) ∧
    (∀ f, u.equal h v = .error f → f = .raised (.nestedTooDeep .comparison)) ∧
    (u.NestsWithin h maxDataDepth ∨ v.NestsWithin h maxDataDepth → ∃ b, u.equal h v = .ok b) ∧
    u.equal h u = .ok true ∧
    (∀ b c, u.equal h v = .ok b → v.equal h u = .ok c → b = c) ∧
    ∀ w b, u.equal h v = .ok true → v.equal h w = .ok true → u.equal h w = .ok b → b = true := by
  have right (v w : Value) : Right (v.equal h w) (v.SameContent h w) := Value.right_equalWithin _ v w
  refine ⟨right u v, fun f failed => (Value.equalWithin_fails_deep closed hu hv failed).1,
    Value.equal_answers closed hu hv, if_pos rfl, fun b c hb hc => ?_, fun w b huv hvw huw => ?_⟩
  · exact Bool.eq_iff_iff.2 ((right u v b hb).trans (Iff.trans ⟨.symm, .symm⟩ (right v u c hc).symm))
  · exact (right u w b huw).2 (((right u v _ huv).1 rfl).trans ((right v w _ hvw).1 rfl))

/-- Two lists that hold the same cyclic list are equal, and neither is equal to a list without a cycle. -/
theorem equality_decides_cyclic_content :
    let h : Heap := {
      slots := #[some (.list #[.ref ⟨0⟩] false), some (.list #[.ref ⟨0⟩, .text "a"] false),
        some (.list #[.ref ⟨0⟩, .ref ⟨3⟩] true), some (.text "a"), some (.list #[.ref ⟨3⟩, .ref ⟨3⟩] false)]
      meter := .depthOnly none }
    h.Closed ∧ (Value.ref ⟨1⟩).LiveIn h ∧ (Value.ref ⟨2⟩).LiveIn h ∧ (Value.ref ⟨4⟩).LiveIn h ∧
      (Value.ref ⟨1⟩).SameContent h (.ref ⟨2⟩) ∧
      (Value.ref ⟨4⟩).NestsWithin h maxDataDepth ∧ (∃ b, (Value.ref ⟨1⟩).equal h (.ref ⟨4⟩) = .ok b) ∧
      ¬ (Value.ref ⟨1⟩).SameContent h (.ref ⟨4⟩) := by
  intro h
  have closed : h.Closed := by decide
  have live (a : Address) (there : (h.cell? a).isSome) : (Value.ref a).LiveIn h := Value.liveIn_ref_iff.2 there
  have texts : ∀ w ∈ (Cell.list #[.ref ⟨3⟩, .ref ⟨3⟩] false).parts, w = .ref ⟨3⟩ := by decide
  have nests : (Value.ref ⟨4⟩).NestsWithin h maxDataDepth := by
    refine Value.nestsWithin_of_parts (n := 199) rfl fun w hw => Value.nestsWithin_of_not_container ?_
    rintro a c rfl found
    cases texts _ hw
    cases found
    exact Bool.false_ne_true
  have same := equality_decides_content closed (live ⟨1⟩ rfl) (live ⟨2⟩ rfl)
  have other := equality_decides_content closed (live ⟨1⟩ rfl) (live ⟨4⟩ rfl)
  refine ⟨closed, live ⟨1⟩ rfl, live ⟨2⟩ rfl, live ⟨4⟩ rfl, ?_, nests, other.2.2.1 (.inr nests), ?_⟩
  · exact (same.1 true (by decide +kernel)).1 rfl
  · exact fun content => Bool.noConfusion ((other.1 false (by decide +kernel)).2 content)

end Scriptlet
