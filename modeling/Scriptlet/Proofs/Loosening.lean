import Scriptlet.Proofs.Life
import Scriptlet.Proofs.Metering
import Scriptlet.Proofs.Refusals
import Scriptlet.Proofs.Watch.Session

/-!
# Looser limits

A limit has no influence on a run but to refuse. So a run in which nothing is refused is the same under all limits that
allow at least as much: the answer, the trace and all that the module holds, down to the slots of the heap, the
free list and the allocations and bytes that were counted.

That nothing was refused can be seen from the answer if the host functions hand refusals on. One that does not may look
at what is refused to it and answer with that.

Limits of time are left out, since running time differs from run to run, and so is the interval of collections,
which is not a limit and decides when objects are freed.
-/

namespace Scriptlet

open Budget (Counters Limits Meter)
open Fault (Cause)
open Trace (Tracer)

/-! ## Limits -/

namespace Budget

/-- What the first limit allows, the second one allows, too. A limit that is not set allows everything. -/
def AtMost (n n' : Option Nat) : Prop := ∀ b ∈ n', ∃ a ∈ n, a ≤ b

/-- The first limits allow at most what the second ones allow. They agree on when to collect, and neither limits
time. -/
structure Limits.Tighter (l l' : Limits) : Prop where
  operations : AtMost l.maxOperations l'.maxOperations
  allocations : AtMost l.maxAllocations l'.maxAllocations
  memory : AtMost l.maxMemory l'.maxMemory
  depth : l.depth ≤ l'.depth
  interval : l.collectionInterval = l'.collectionInterval
  untimed : l.maxDuration = none ∧ l'.maxDuration = none

namespace Meter

/-- The limits that a meter enforces. One that only knows the call depth has set no other limit. -/
def enforced : Meter → Limits
  | .depthOnly maxDepth => { maxDepth }
  | .full limits _ => limits

theorem depth_enforced (m : Meter) : m.enforced.depth = m.depthLimit := by
  cases m <;> rfl

theorem interval_enforced (m : Meter) : m.enforced.collectionInterval = m.collectionInterval := by
  cases m <;> rfl

/-- The first meter has the tighter limits, and as far as both count, they have counted the same. Statements are
counted only if they are limited. -/
structure Tighter (m m' : Meter) : Prop where
  limits : m.enforced.Tighter m'.enforced
  counters : ∀ c ∈ m.counters?, ∀ c' ∈ m'.counters?, c.allocations = c'.allocations ∧
    c.memory = c'.memory ∧ (m'.enforced.maxOperations.isSome → c.operations = c'.operations)

variable {m m' k : Meter} {size : Nat}

namespace Tighter

theorem depthLimit (h : Tighter m m') : m.depthLimit ≤ m'.depthLimit := by
  rw [← m.depth_enforced, ← m'.depth_enforced]
  exact h.limits.depth

/-- Where the first meter sets no limit, the second sets none either. -/
theorem not_limited {n : Option Nat} (h : AtMost none n) (b : Nat) : b ∉ n := by
  intro hb
  obtain ⟨a, ha, -⟩ := h b hb
  cases ha

theorem charge (h : Tighter m m') (charged : m.charge size = .ok k) : ∃ k', m'.charge size = .ok k' ∧ Tighter k k' := by
  cases m with
  | depthOnly maxDepth =>
    cases charged
    cases m' with
    | depthOnly maxDepth' => exact ⟨_, rfl, h⟩
    | full l' c' =>
      refine ⟨_, charge_full_eq_ok_iff.2 ⟨fun b hb => ?_, fun b hb => ?_, rfl⟩, h.limits, by simp [counters?]⟩
      · exact absurd hb (not_limited h.limits.allocations b)
      · exact absurd hb (not_limited h.limits.memory b)
  | full l c =>
    obtain ⟨few, small, rfl⟩ := charge_full_eq_ok_iff.1 charged
    cases m' with
    | depthOnly maxDepth' => exact ⟨_, rfl, h.limits, by simp [counters?]⟩
    | full l' c' =>
      obtain ⟨allocations, memory, operations⟩ := h.counters c rfl c' rfl
      refine ⟨_, charge_full_eq_ok_iff.2 ⟨fun b hb => ?_, fun b hb => ?_, rfl⟩, h.limits, ?_⟩
      · obtain ⟨a, ha, hab⟩ := h.limits.allocations b hb
        exact allocations ▸ Nat.lt_of_lt_of_le (few a ha) hab
      · obtain ⟨a, ha, hab⟩ := h.limits.memory b hb
        exact memory ▸ Nat.le_trans (small a ha) hab
      · rintro _ ⟨⟩ _ ⟨⟩
        exact ⟨congrArg (· + 1) allocations, congrArg (· + size) memory, operations⟩

theorem tick (h : Tighter m m') (through : m.tick.1 = none) : m'.tick.1 = none ∧ Tighter m.tick.2 m'.tick.2 := by
  cases m' with
  | depthOnly maxDepth' =>
    refine ⟨rfl, ?_, by simp [Meter.tick, counters?]⟩
    cases m with
    | depthOnly maxDepth => exact h.limits
    | full l c =>
      obtain ⟨d, after, -⟩ := tick_full l c
      rw [after]
      exact h.limits
  | full l' c' =>
    obtain ⟨d', after', ticked', through'⟩ := tick_full l' c'
    rw [after', through']
    cases m with
    | depthOnly maxDepth =>
      refine ⟨?_, h.limits, by simp [Meter.tick, counters?]⟩
      rintro (⟨n, hn, -⟩ | ⟨d, hd, -⟩)
      · exact not_limited h.limits.operations n hn
      · simp [show l'.maxDuration = none from h.limits.untimed.2] at hd
    | full l c =>
      obtain ⟨d, after, ticked, unspent⟩ := tick_full l c
      obtain ⟨allocations, memory, operations⟩ := h.counters c rfl c' rfl
      -- If the second meter counts statements, then so does the first.
      have counts (limited : l'.maxOperations.isSome) : l.maxOperations.isSome := by
        obtain ⟨b, hb⟩ := Option.isSome_iff_exists.1 limited
        obtain ⟨a, ha, -⟩ := h.limits.operations b hb
        exact Option.isSome_iff_exists.2 ⟨a, ha⟩
      have same (limited : l'.maxOperations.isSome) : d.operations = d'.operations := by
        rw [ticked.operations, ticked'.operations, if_pos limited, if_pos (counts limited),
          operations limited]
      refine ⟨?_, ?_⟩
      · rintro (⟨b, hb, spent⟩ | ⟨t, ht, -⟩)
        · obtain ⟨a, ha, hab⟩ := h.limits.operations b hb
          refine unspent.1 through (.inl ⟨a, ha, ?_⟩)
          rw [same (Option.isSome_iff_exists.2 ⟨b, hb⟩)]
          exact Nat.lt_of_le_of_lt hab spent
        · simp [show l'.maxDuration = none from h.limits.untimed.2] at ht
      · rw [after]
        refine ⟨h.limits, ?_⟩
        rintro _ ⟨⟩ _ ⟨⟩
        refine ⟨?_, ?_, same⟩
        · rw [ticked.allocations, ticked'.allocations, allocations]
        · rw [ticked.memory, ticked'.memory, memory]

theorem refund (h : Tighter m m') (size : Nat) : Tighter (m.refund size) (m'.refund size) := by
  cases m with
  | depthOnly d =>
    cases m' with
    | depthOnly d' => exact h
    | full l' c' => exact ⟨h.limits, by simp [Meter.refund, counters?]⟩
  | full l c =>
    cases m' with
    | depthOnly d' => exact ⟨h.limits, by simp [Meter.refund, counters?]⟩
    | full l' c' =>
      obtain ⟨allocations, memory, operations⟩ := h.counters c rfl c' rfl
      refine ⟨h.limits, ?_⟩
      intro d hd d' hd'
      cases hd
      cases hd'
      exact ⟨allocations, congrArg (· - size) memory, operations⟩

end Tighter

end Meter

end Budget

/-- Modules that differ in their limits, where a refusal may part the one with the tighter limits from the other. -/
def Coupling.limits : Coupling where
  meter := Meter.Tighter
  lexicon := Eq
  parts := True
  charge := by
    intro m m' h size
    cases charged : m.charge size with
    | error use => exact .inl ⟨use, rfl, .inl trivial⟩
    | ok k =>
      obtain ⟨k', charged', hk⟩ := h.charge charged
      exact .inr ⟨k, k', rfl, charged', hk⟩
  refund := Meter.Tighter.refund
  tick := by
    intro m m' h
    cases ticked : m.tick.1 with
    | some use => exact .inl ⟨⟨use, rfl⟩, trivial⟩
    | none =>
      obtain ⟨ticked', hk⟩ := h.tick ticked
      exact .inr ⟨ticked'.symm, hk⟩
  interval := by
    intro m m' h
    rw [← m.interval_enforced, ← m'.interval_enforced]
    exact h.limits.interval
  learn := learn_eq

/-! ## Modules -/

namespace Module

open Coupling (limits)

variable {m : Module} {meter : Meter} {s : Step}

/-- Nothing is refused while the request is answered. -/
def Unrefused (m : Module) (s : Step) : Prop := ¬ Heap.Refused (m.stepChronicled s).2

/-- Some session leads to the module. -/
def Reachable (m : Module) : Prop := ∃ name meter steps, ((create name meter).run steps).2 = m

theorem Reachable.answer_ne_broken {m : Module} (h : m.Reachable) (s : Step) (table : Table) (i : Nat) :
    (m.step s).1.answer ≠ .failed (.broken table i) := by
  obtain ⟨name, meter, steps, rfl⟩ := h
  obtain ⟨H, tracked⟩ := (session_right (tracked_create name meter) steps).tracked
  exact (stepWatched_right tracked s).answer table i

/-- If the host functions hand refusals on, then a request was refused nothing unless its answer is a refusal. -/
theorem Reachable.unrefused (reachable : m.Reachable)
    (handsOn : ∀ e ∈ m.library.natives, e.native.HandsOn Cause.IsRefusal)
    (answer : ∀ e, (m.step s).1.answer = .failed (.raised e) → ¬ e.cause.IsRefusal) : m.Unrefused s := by
  have told := (m.recounts_step s).1
  have unbroken := reachable.answer_ne_broken s
  rw [← told] at answer unbroken
  unfold Unrefused
  unfold stepChronicled at answer unbroken ⊢
  obtain ⟨e, m', sent, -, natives, -⟩ | ⟨sent, -⟩ := m.step_cases s
  · rw [← natives] at handsOn
    have reports := e.reports handsOn m'.depthLimit ⟨m'.machine s.tracer, []⟩
    rw [sent] at answer unbroken ⊢
    simp only at answer unbroken ⊢
    generalize e.chronicled m'.library m'.depthLimit _ = r at reports answer unbroken ⊢
    have nothing : ¬ Heap.Refused [] := by simp [Heap.Refused]
    cases reports with
    | ok allows => exact mt allows nothing
    | @error f w h =>
      refine mt (h.resolve_left fun refusal => ?_) nothing
      cases f with
      | raised e => exact answer e rfl refusal
      | broken table i => exact unbroken table i rfl
  · rw [sent]
    simp [Heap.Refused]

end Module

/-- A host function that asks for a string and says whether it got one. -/
def probe : HostFunction :=
  ⟨fun _ => .newText "x" fun r => .giveBack (.bool (r.toOption.isSome))⟩

/-- What it answers when no object is allowed, and when there is no limit. -/
example :
    let asks (meter : Meter) : List Reply := ((Module.create "m" meter).run
      [.addBuiltin "probe" probe, .eval (.call (.name "probe") [])]).1
    (asks (.start { maxAllocations := some 0 })).map (·.answer) = [.done, .object (.bool false)] ∧
      (asks (.depthOnly none)).map (·.answer) = [.done, .object (.bool true)] := by
  decide +kernel

end Scriptlet
