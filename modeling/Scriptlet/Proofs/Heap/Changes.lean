import Scriptlet.Machine.Basic
import Scriptlet.Proofs.Heap.Reach
import Scriptlet.Proofs.Metering

/-!
# The changes of a heap

A heap changes by few operations: objects come, change in place and go, and statements are counted. A chain of
changes lists them one by one, from one heap to another, together with the events that the tracer is told of on
the way. A chain is cut nowhere finer than between two operations, so what holds after each of its changes holds at
every point of it.
-/

namespace Scriptlet

open Budget (Counters Limits Meter)
open Trace (Event StatementKind)

/-- What happens to a heap, or is told while nothing happens to it. -/
inductive Happening where
  /-- An object of this size was charged and put into a slot. -/
  | allocated (a : Address) (size : Nat)
  /-- An allocation was refused. -/
  | refused
  /-- Objects were changed in place. -/
  | changed
  /-- A slot was emptied, and the size that its object had then was given back. -/
  | freed (a : Address) (size : Nat)
  /-- A collection has ended. -/
  | swept
  /-- A statement was let through, and the tracer was told that it starts. -/
  | started (kind : StatementKind) (depth : Nat)
  /-- A statement was refused. -/
  | stopped
  /-- The tracer was told of something other than a statement. -/
  | told (e : Event)
  /-- A call was refused, as too many were open. -/
  | barred
  deriving DecidableEq

namespace Happening

/-- What the tracer was told. -/
def event? : Happening → Option Event
  | .started kind depth => some (.statement kind depth)
  | .told e => some e
  | _ => none

def isAllocated : Happening → Bool
  | .allocated .. => true
  | _ => false

def isStarted : Happening → Bool
  | .started .. => true
  | _ => false

/-- Whether a limit was met. -/
def isRefusal : Happening → Bool
  | .refused | .stopped | .barred => true
  | _ => false

end Happening

namespace Heap

/-- The operations on a heap that make something happen. -/
inductive Happens (h : Heap) : Happening → Heap → Prop where
  | allocated {c : Cell} {a : Address} {h' : Heap} (ran : allocate c h = .ok a h') :
      Happens h (.allocated a c.size) h'
  | refused {c : Cell} {f : Failure} {h' : Heap} (ran : allocate c h = .error f h') :
      Happens h .refused h'
  | updated (a : Address) (f : Cell → Cell) : Happens h .changed (h.update a f)
  | frozen (roots : List Address) : Happens h .changed (h.freezeFrom roots)
  | freed {a : Address} {c : Cell} (found : h.cell? a = some c) :
      Happens h (.freed a c.size) (h.discard a)
  | swept : Happens h .swept { h with sinceCollection := 0 }
  | started (kind : StatementKind) (depth : Nat) {h' : Heap} (ran : Run.tick h = .ok () h') :
      Happens h (.started kind depth) h'
  | stopped {f : Failure} {h' : Heap} (ran : Run.tick h = .error f h') : Happens h .stopped h'
  | told {e : Event} (other : ∀ kind depth, e ≠ .statement kind depth) : Happens h (.told e) h
  | barred : Happens h .barred h

/-- Something that happened, with the heap before and after it. -/
structure Change where
  before : Heap
  what : Happening
  after : Heap

/-- The changes led from the first heap to the second. -/
inductive Chain (h₀ : Heap) : List Change → Heap → Prop where
  | start : Chain h₀ [] h₀
  | step {past : List Change} {h h' : Heap} {e : Happening} (before : Chain h₀ past h)
      (happens : h.Happens e h') : Chain h₀ (past ++ [⟨h, e, h'⟩]) h'

namespace Chain

variable {h₀ h h' : Heap} {past later : List Change}

theorem single {e : Happening} (happens : h.Happens e h') : Chain h [⟨h, e, h'⟩] h' :=
  .step .start happens

theorem append (first : Chain h₀ past h) (second : Chain h later h') : Chain h₀ (past ++ later) h' := by
  induction second with
  | start => simpa using first
  | step _ happens ih =>
    rw [← List.append_assoc]
    exact .step ih happens

/-- A chain passes through all its beginnings. -/
theorem of_prefix (chain : Chain h₀ later h) (cut : past <+: later) : ∃ h₁, Chain h₀ past h₁ := by
  induction chain with
  | start =>
    rw [List.prefix_nil.1 cut]
    exact ⟨h₀, .start⟩
  | step before happens ih =>
    obtain rfl | shorter := List.prefix_concat_iff.1 cut
    · exact ⟨_, .step before happens⟩
    · exact ih shorter

end Chain

/-! ## Tidy heaps -/

theorem allocate_eq_ok {h h' : Heap} (ht : h.Tidy) {c : Cell} {a : Address} (ran : allocate c h = .ok a h') :
    h.meter.charge c.size = .ok h'.meter ∧ Placed h c a h' := by
  obtain ⟨use, -, refused⟩ | ⟨meter, b, k, charged, allocated, placed, rfl⟩ := allocate_cases ht c
  · rw [refused] at ran
    cases ran
  · rw [allocated] at ran
    cases ran
    exact ⟨charged, placed⟩

theorem allocate_eq_error {h h' : Heap} (ht : h.Tidy) {c : Cell} {f : Failure}
    (ran : allocate c h = .error f h') : h' = h := by
  obtain ⟨use, -, refused⟩ | ⟨meter, b, k, -, allocated, -⟩ := allocate_cases ht c
  · rw [refused] at ran
    cases ran
    rfl
  · rw [allocated] at ran
    cases ran

theorem tick_eq_ok {h h' : Heap} (ran : Run.tick h = .ok () h') :
    h.meter.tick.1 = none ∧ h' = { h with meter := h.meter.tick.2 } := by
  obtain ⟨slots, free, meter, sinceCollection⟩ := h
  simp only [Run.tick] at ran
  split at ran
  · cases ran
  · rename_i ticked
    cases ran
    simp [ticked]

theorem tick_eq_error {h h' : Heap} {f : Failure} (ran : Run.tick h = .error f h') :
    h.meter.tick.1 ≠ none ∧ h' = { h with meter := h.meter.tick.2 } := by
  obtain ⟨slots, free, meter, sinceCollection⟩ := h
  simp only [Run.tick] at ran
  split at ran
  · rename_i ticked
    cases ran
    simp [ticked]
  · cases ran

theorem Happens.tidy {h h' : Heap} {e : Happening} (ht : h.Tidy) (happens : h.Happens e h') : h'.Tidy := by
  cases happens with
  | allocated ran => exact (allocate_eq_ok ht ran).2.tidy
  | refused ran => exact allocate_eq_error ht ran ▸ ht
  | updated a f => exact ht.update a f
  | frozen roots => exact ht.freezeFrom roots
  | freed found => exact ht.discard _
  | swept => exact ⟨ht.mem_free_iff, ht.nodup⟩
  | started kind depth ran =>
    rw [(tick_eq_ok ran).2]
    exact ⟨ht.mem_free_iff, ht.nodup⟩
  | stopped ran =>
    rw [(tick_eq_error ran).2]
    exact ⟨ht.mem_free_iff, ht.nodup⟩
  | told other => exact ht
  | barred => exact ht

/-- Nothing that happens to a heap changes the terms of its meter. -/
theorem Happens.reset {h h' : Heap} {e : Happening} (ht : h.Tidy) (happens : h.Happens e h') :
    h'.meter.reset = h.meter.reset := by
  cases happens with
  | allocated ran => exact (allocate_eq_ok ht ran).2.meter
  | refused ran => rw [allocate_eq_error ht ran]
  | freed found =>
    obtain ⟨freed, refunded⟩ := h.meter_discard _
    rw [refunded, Meter.reset_refund]
  | started kind depth ran =>
    rw [(tick_eq_ok ran).2]
    exact h.meter.reset_tick
  | stopped ran =>
    rw [(tick_eq_error ran).2]
    exact h.meter.reset_tick
  | _ => rfl

namespace Chain

variable {h₀ h : Heap} {past : List Change}

theorem tidy (ht : h₀.Tidy) (chain : Chain h₀ past h) : h.Tidy := by
  induction chain with
  | start => exact ht
  | step _ happens ih => exact happens.tidy ih

theorem reset (ht : h₀.Tidy) (chain : Chain h₀ past h) : h.meter.reset = h₀.meter.reset := by
  induction chain with
  | start => rfl
  | step before happens ih => exact (happens.reset (before.tidy ht)).trans ih

/-- Each change of a chain is an operation on a tidy heap. -/
theorem mem (ht : h₀.Tidy) (chain : Chain h₀ past h) {x : Change} (hx : x ∈ past) :
    x.before.Tidy ∧ x.before.Happens x.what x.after := by
  induction chain with
  | start => cases hx
  | step before happens ih =>
    obtain hx | hx := List.mem_append.1 hx
    · exact ih hx
    · rw [List.mem_singleton.1 hx]
      exact ⟨before.tidy ht, happens⟩

end Chain

/-! ## Counters -/

/-- What a meter with limits makes of its counters when something happens that it has let through or refused. -/
def Counts (l : Limits) (c : Counters) : Happening → Counters → Prop
  | .allocated _ size, c' =>
    (∀ n ∈ l.maxAllocations, c.allocations < n) ∧ (∀ n ∈ l.maxMemory, c.memory + size ≤ n) ∧
      c' = { c with allocations := c.allocations + 1, memory := c.memory + size }
  | .freed _ size, c' => c' = { c with memory := c.memory - size }
  | .started .., c' => c.Ticked l c' ∧ ¬ l.Spent c'
  | .stopped, c' => c.Ticked l c' ∧ l.Spent c'
  | _, c' => c' = c

theorem Happens.counts {h h' : Heap} (ht : h.Tidy) {l : Limits} {c : Counters} (hm : h.meter = .full l c)
    {e : Happening} (happens : h.Happens e h') : ∃ c', h'.meter = .full l c' ∧ Counts l c e c' := by
  cases happens with
  | allocated ran =>
    have charged := (allocate_eq_ok ht ran).1
    rw [hm] at charged
    obtain ⟨few, small, meter⟩ := Meter.charge_full_eq_ok_iff.1 charged
    exact ⟨_, meter, few, small, rfl⟩
  | refused ran =>
    rw [allocate_eq_error ht ran]
    exact ⟨c, hm, rfl⟩
  | @freed a cell found =>
    have meter : (h.discard a).meter = h.meter.refund cell.size := by simp only [discard, found]
    rw [meter, hm]
    exact ⟨_, rfl, rfl⟩
  | started kind depth ran =>
    obtain ⟨through, rfl⟩ := tick_eq_ok ran
    obtain ⟨c', meter, ticked, unspent⟩ := Meter.tick_full l c
    rw [hm] at through ⊢
    exact ⟨c', meter, ticked, unspent.1 through⟩
  | stopped ran =>
    obtain ⟨refused, rfl⟩ := tick_eq_error ran
    obtain ⟨c', meter, ticked, unspent⟩ := Meter.tick_full l c
    rw [hm] at refused ⊢
    exact ⟨c', meter, ticked, not_not.1 (mt unspent.2 refused)⟩
  | _ => exact ⟨c, hm, rfl⟩

end Heap

end Scriptlet
