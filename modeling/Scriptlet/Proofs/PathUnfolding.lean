import Scriptlet.Proofs.Object.Places

/-!
# Unfolding follows paths

A conversion carries a set of objects through the whole graph below a value. It does what a plain recursion does that
carries the list of the objects above: the two agree on every graph, cyclic or not, and the set is always left as it
was found.
-/

namespace Scriptlet

open Budget (maxDataDepth)
open Heap (Cell)

namespace Value

/-- The object of a value that lies below the objects of a path. What is on the path already becomes a mark, and so does
what has as many objects above it as data may be deep. All else is converted part by part, in order. -/
def unfoldAlong (l : Library) (h : Heap) (path : List Address) : Value → Attempt Object
  | .none => .ok .none
  | .bool b => .ok (.bool b)
  | .int n => .ok (.int n)
  | .text s => .ok (.string s)
  | .native id => do
    let e ← l.native id
    return .described s!"<built-in function {e.name}>"
  | .ref a =>
    if a ∈ path then do return .cycle (← h.read a).cycleMark
    else if maxDataDepth ≤ path.length then return .described "..."
    else do
      let c ← h.read a
      c.convert l h (unfoldAlong l h (a :: path))
termination_by maxDataDepth - path.length
decreasing_by
  rw [List.length_cons]
  omega

variable {l : Library} {h : Heap}

theorem unfoldAlong_eq_unfoldWithin (path : List Address) (v : Value) :
    v.unfoldAlong l h path = v.unfoldWithin l h (maxDataDepth - path.length) path := by
  generalize room : maxDataDepth - path.length = n
  induction n generalizing path v with
  | zero =>
    unfold unfoldAlong
    cases v with
    | ref a =>
      have full : maxDataDepth ≤ path.length := Nat.le_of_sub_eq_zero room
      simp only [unfoldWithin, List.contains_iff_mem, full, if_true]
    | _ => rfl
  | succ n ih =>
    unfold unfoldAlong
    cases v with
    | ref a =>
      have more : ¬ maxDataDepth ≤ path.length := by omega
      have less : maxDataDepth - (a :: path).length = n := by
        rw [List.length_cons]
        omega
      by_cases on : a ∈ path
      · have met : path.contains a = true := List.contains_iff_mem.2 on
        simp only [unfoldWithin, met, on, if_true]
      · rw [unfoldWithin_succ on]
        simp only [on, more, if_false]
        rw [funext fun v => ih (a :: path) v less]
    | _ => rfl

end Value

/-- All that the objects of a heap name or refer to is there. -/
def Heap.Complete (l : Library) (h : Heap) : Prop :=
  ∀ a c, h.cell? a = some c → c.Named l h ∧ ∀ w ∈ c.parts, w.Named l h

theorem Heap.Complete.named {l : Library} {h : Heap} (complete : h.Complete l) {v w : Value} (named : v.Named l h)
    {path : List Address} (leads : v.Leads h path w) : w.Named l h := by
  cases leads with
  | self => exact named
  | inside _ found part => exact (complete _ _ found).2 w part

/-- On every graph, cyclic or not, a conversion does what the recursion along paths says, and leaves its set as it was;
where all that is named is there, it comes to an end with an object. A shared object without cycles is copied at each
place, never becomes a mark of a cycle and is copied in full wherever it fits. -/
theorem unfold_follows_paths (l : Library) (h : Heap) (v : Value) :
    v.unfold l h = v.unfoldAlong l h [] ∧
    (h.Complete l → v.Named l h → ∃ o, v.unfold l h = .ok o) ∧
    (∀ n (s : Visiting n) path (w : Value), s.Holds path →
      w.unfoldVisiting l h n s = w.unfoldAlong l h path >>= fun o => .ok (o, s)) ∧
    (∀ n (s s' : Visiting n) (w : Value) o, w.unfoldVisiting l h n s = .ok (o, s') → s' = s) ∧
    (∀ path w o, v.Leads h path w → w.Acyclic h → w.unfoldAlong l h path = .ok o →
      ∀ k text, ¬ (Object.cycle text).Lies k o) ∧
    ∀ path w o, v.Leads h path w → w.Acyclic h → path.Nodup → path.length ≤ maxDataDepth →
      w.FitsIn h (maxDataDepth - path.length) → v.unfold l h = .ok o →
      ∃ p, w.unfold l h = .ok p ∧ p.Lies path.length o := by
  have along (n : Nat) (s : Visiting n) (path : List Address) (w : Value) (holds : s.Holds path) :
      w.unfoldVisiting l h n s = w.unfoldAlong l h path >>= fun o => .ok (o, s) := by
    rw [Value.unfoldAlong_eq_unfoldWithin]
    exact Value.leaves_unfoldVisiting holds
  refine ⟨?_, fun complete named => ?_, along, fun n s s' w o ran => ?_, fun path w o leads acyclic ran => ?_,
    fun path w o leads acyclic nodup le fits ran => ?_⟩
  · rw [Value.unfold_eq_unfoldWithin, Value.unfoldAlong_eq_unfoldWithin]
    rfl
  · rw [Value.unfold_eq_unfoldWithin]
    exact Value.exists_unfoldWithin (fun path w leads => complete.named named leads) _ []
  · obtain ⟨path, holds⟩ := s.exists_holds
    rw [along n s path w holds] at ran
    obtain ⟨p, -, made⟩ := Attempt.bind_eq_ok.1 ran
    cases made
    rfl
  · rw [Value.unfoldAlong_eq_unfoldWithin] at ran
    exact Value.not_lies_cycle acyclic (acyclic.avoids leads) ran
  · rw [Value.unfold_eq_unfoldWithin] at ran
    rw [Value.unfold_eq_unfoldWithin]
    obtain ⟨p, ran, lies⟩ := Value.lies_of_leads ran leads (by rwa [List.append_nil]) le
    rw [List.append_nil] at ran
    have root : w.Avoids h [] := fun a on => absurd on List.not_mem_nil
    have fits' : w.FitsIn h maxDataDepth := fun inner a inside => Nat.lt_of_lt_of_le (fits inner a inside) (Nat.sub_le _ _)
    exact ⟨p, (Value.unfoldWithin_eq_of_avoids acyclic root (acyclic.avoids leads) fits' fits).trans ran, lies⟩

/-- A list that holds itself and, twice, another list: the other list is copied in full both times. -/
theorem unfold_follows_shared_paths :
    let h : Heap := {
      slots := #[some (.list #[.ref ⟨0⟩, .ref ⟨1⟩, .ref ⟨1⟩] false), some (.list #[.text "a"] false)]
      meter := .depthOnly none }
    let o : Object := .list [.cycle "[...]", .list [.string "a"], .list [.string "a"]]
    h.Complete {} ∧ (Value.ref ⟨0⟩).Named {} h ∧ (∃ o, (Value.ref ⟨0⟩).unfold {} h = .ok o) ∧
      (Value.ref ⟨0⟩).unfold {} h = .ok o ∧ (Value.ref ⟨0⟩).Leads h [⟨0⟩] (.ref ⟨1⟩) ∧
      (Value.ref ⟨1⟩).Acyclic h ∧ (Value.ref ⟨1⟩).FitsIn h (maxDataDepth - 1) ∧
      ∃ p, (Value.ref ⟨1⟩).unfold {} h = .ok p ∧ p.Lies 1 o := by
  intro h o
  have named (a : Address) (there : a = ⟨0⟩ ∨ a = ⟨1⟩) : (Value.ref a).Named {} h := by
    rcases there with rfl | rfl <;> exact ⟨_, rfl, trivial⟩
  have slots : ∀ slot ∈ h.slots.toList, ∀ c ∈ slot, c.isContainer ∧
      ∀ w ∈ c.parts, w = .text "a" ∨ w = .ref ⟨0⟩ ∨ w = .ref ⟨1⟩ := by decide
  have complete : h.Complete {} := by
    intro a c found
    obtain ⟨container, parts⟩ := slots _ (Heap.mem_slots_of_cell? found) c rfl
    refine ⟨Cell.named_of_isData (Cell.isData_of_isContainer container), fun w part => ?_⟩
    rcases parts w part with rfl | rfl | rfl
    · trivial
    · exact named _ (.inl rfl)
    · exact named _ (.inr rfl)
  have text : ∀ u ∈ (Cell.list #[.text "a"] false).parts, u = .text "a" := by decide
  have inside {path : List Address} {a : Address} (leads : (Value.ref ⟨1⟩).Leads h path (.ref a)) :
      path = [] ∧ a = ⟨1⟩ := by
    rcases leads.eq_or_of_part with ⟨rfl, same⟩ | ⟨_, c, u, inner, same, found, part, -, below⟩
    · cases same
      exact ⟨rfl, rfl⟩
    · cases same
      cases found
      cases text u part
      cases (below.eq_self rfl).2
  have acyclic : (Value.ref ⟨1⟩).Acyclic h := by
    intro path a leads loop again
    obtain ⟨-, rfl⟩ := inside leads
    exact (inside again).1
  have fits : (Value.ref ⟨1⟩).FitsIn h (maxDataDepth - 1) := by
    intro path a leads
    rw [(inside leads).1]
    decide
  have leads : (Value.ref ⟨0⟩).Leads h [⟨0⟩] (.ref ⟨1⟩) := .inside .self rfl (by decide)
  have shown : (Value.ref ⟨0⟩).unfold {} h = .ok o := by decide +kernel
  obtain ⟨-, ends, -, -, -, copied⟩ := unfold_follows_paths {} h (.ref ⟨0⟩)
  exact ⟨complete, named _ (.inl rfl), ends complete (named _ (.inl rfl)), shown, leads, acyclic, fits,
    copied _ _ o leads acyclic (by decide) (by decide) fits shown⟩

end Scriptlet
