import Scriptlet.Proofs.Life

/-!
# Limits are hard

Each limit bounds what the programs of a module do over its whole life, whatever is asked of it and however the
requests end. The counters are checked before something happens, so the bounds hold at every point of the life and
not only between requests.
-/

namespace Scriptlet

open Budget (Counters Limits Meter)
open Heap (Chain Change)

/-! ## Bounds on what has happened -/

/-- What has happened and what was counted keep to the limits. -/
structure Budget.Limits.Kept (l : Limits) (past : List Happening) (c : Counters) : Prop where
  /-- The allocations that succeeded are counted and no others. -/
  counted : c.allocations = past.countP Happening.isAllocated
  allocations : ∀ n ∈ l.maxAllocations, past.countP Happening.isAllocated ≤ n
  memory : ∀ n ∈ l.maxMemory, c.memory ≤ n
  /-- If statements are limited, those that were refused are counted, too. -/
  requested : l.maxOperations.isSome →
    c.operations = past.countP Happening.isStarted + past.count .stopped
  statements : ∀ n ∈ l.maxOperations, past.countP Happening.isStarted ≤ n
  spent : .stopped ∈ past → l.Spent c
  /-- Once a statement was refused, none starts any more. -/
  refusals : past.Pairwise fun e e' => e = .stopped → e'.isStarted = false

namespace Budget.Limits.Kept

variable {l : Limits} {past : List Happening} {c c' : Counters}

theorem nil (l : Limits) : l.Kept [] {} where
  counted := rfl
  allocations _ _ := Nat.zero_le _
  memory _ _ := Nat.zero_le _
  requested _ := rfl
  statements _ _ := Nat.zero_le _
  spent := by simp
  refusals := .nil

theorem refusals_concat (kept : l.Kept past c) {e : Happening} (started : e.isStarted = false) :
    (past ++ [e]).Pairwise fun e e' => e = .stopped → e'.isStarted = false := by
  simp [List.pairwise_append, kept.refusals, started]

/-- Something happened that is not counted, and memory may have been given back. -/
theorem quiet (kept : l.Kept past c) {e : Happening} (allocated : e.isAllocated = false)
    (started : e.isStarted = false) (stopped : e ≠ .stopped) {memory : Nat} (less : memory ≤ c.memory) :
    l.Kept (past ++ [e]) { c with memory } where
  counted := by simpa [allocated] using kept.counted
  allocations := by simpa [allocated] using kept.allocations
  memory n hn := Nat.le_trans less (kept.memory n hn)
  requested := by simpa [started, stopped] using kept.requested
  statements := by simpa [started] using kept.statements
  spent h := kept.spent (by simpa [Ne.symm stopped] using h)
  refusals := kept.refusals_concat started

theorem allocated (kept : l.Kept past c) (a : Address) {size : Nat}
    (few : ∀ n ∈ l.maxAllocations, c.allocations < n) (small : ∀ n ∈ l.maxMemory, c.memory + size ≤ n) :
    l.Kept (past ++ [.allocated a size])
      { c with allocations := c.allocations + 1, memory := c.memory + size } where
  counted := by simp [Happening.isAllocated, kept.counted]
  allocations n hn := by
    have one_more := few n hn
    rw [kept.counted] at one_more
    simpa [Happening.isAllocated] using Nat.succ_le_of_lt one_more
  memory := small
  requested := by simpa [Happening.isStarted] using kept.requested
  statements := by simpa [Happening.isStarted] using kept.statements
  spent h := kept.spent (by simpa using h)
  refusals := kept.refusals_concat rfl

theorem started (kept : l.Kept past c) (kind : Trace.StatementKind) (depth : Nat)
    (ticked : c.Ticked l c') (unspent : ¬ l.Spent c') : l.Kept (past ++ [.started kind depth]) c' := by
  have requested : l.maxOperations.isSome →
      c'.operations = past.countP Happening.isStarted + 1 + past.count .stopped := by
    intro limited
    rw [ticked.operations, kept.requested limited, if_pos limited]
    omega
  -- What is spent stays spent, so no statement was refused before.
  have unrefused : .stopped ∉ past := fun stopped => unspent ((kept.spent stopped).ticked ticked)
  constructor
  case counted => simpa [Happening.isAllocated, ticked.allocations] using kept.counted
  case allocations => simpa [Happening.isAllocated] using kept.allocations
  case memory => simpa [ticked.memory] using kept.memory
  case requested => simpa [Happening.isStarted] using requested
  case statements =>
    intro n hn
    have within : c'.operations ≤ n := Nat.le_of_not_lt fun h => unspent (.inl ⟨n, hn, h⟩)
    rw [requested (Option.isSome_of_mem hn)] at within
    simp only [List.countP_append, Happening.isStarted, List.countP_singleton, if_true]
    omega
  case spent => simpa using fun stopped => absurd stopped unrefused
  case refusals =>
    simp only [List.pairwise_append, kept.refusals, List.pairwise_singleton, true_and]
    rintro e he _ _ rfl
    exact absurd he unrefused

theorem stopped (kept : l.Kept past c) (ticked : c.Ticked l c') (spent : l.Spent c') :
    l.Kept (past ++ [.stopped]) c' where
  counted := by simpa [Happening.isAllocated, ticked.allocations] using kept.counted
  allocations := by simpa [Happening.isAllocated] using kept.allocations
  memory := by simpa [ticked.memory] using kept.memory
  requested limited := by
    have requested := kept.requested limited
    simp only [ticked.operations, if_pos limited, requested, List.countP_append, List.count_append,
      List.countP_singleton, List.count_singleton, Happening.isStarted]
    simp
    omega
  statements := by simpa [Happening.isStarted] using kept.statements
  spent _ := spent
  refusals := kept.refusals_concat rfl

/-- What the meter makes of its counters keeps to the limits. -/
theorem step (kept : l.Kept past c) {e : Happening} (counts : Heap.Counts l c e c') : l.Kept (past ++ [e]) c' := by
  cases e with
  | allocated a size =>
    obtain ⟨few, small, rfl⟩ := counts
    exact kept.allocated a few small
  | freed a size =>
    cases counts
    exact kept.quiet rfl rfl (by simp) (Nat.sub_le ..)
  | started kind depth => exact kept.started kind depth counts.1 counts.2
  | stopped => exact kept.stopped counts.1 counts.2
  | _ =>
    cases counts
    exact kept.quiet rfl rfl (by simp) (Nat.le_refl _)

end Budget.Limits.Kept

/-! ## Bounds on lives -/

namespace Heap

variable {l : Limits} {h : Heap}

theorem Chain.kept {past : List Change} (chain : (empty (.start l)).Chain past h) :
    ∃ c, h.meter = .full l c ∧ l.Kept (past.map Change.what) c := by
  induction chain with
  | start => exact ⟨{}, rfl, .nil l⟩
  | step before happens ih =>
    obtain ⟨c, hm, kept⟩ := ih
    obtain ⟨c', hm', counts⟩ := happens.counts (before.tidy (tidy_empty _)) hm
    rw [List.map_append]
    exact ⟨c', hm', kept.step counts⟩

end Heap

end Scriptlet
