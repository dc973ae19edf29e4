import Scriptlet.Proofs.Watch.Session

/-!
# Frozen modules do not change

Freezing a module freezes its globals and the containers that they reach. Only containers have a mark that says
so, but what else the globals reach does not change either: code only ever assigns to the frame of the call it
runs in, and at the time of the freeze no call is open.
-/

namespace Scriptlet

open Budget (Meter)
open Heap (Cell Reaches)

namespace Module

variable {m : Module} {H : History}

/-- All that the globals of a module in order reach is there. -/
theorem Tracked.live_of_reaches (h : m.Tracked H) {a : Address}
    (ha : Reaches m.heap m.globals.roots a) : ∃ c, m.heap.cell? a = some c := by
  have A := h.machine.sound.store.alike
  obtain ⟨b, -, hab⟩ := A.reaches (Globals.referents_roots h.machine.sound.globals) ha
  obtain ⟨-, c, hc, -⟩ | ⟨-, f, hf, -⟩ := hab
  · exact ⟨c, hc⟩
  · exact ⟨_, hf⟩

theorem not_mutable_freeze (c : Cell) : ¬ c.freeze.Mutable := by
  intro mutable
  cases c <;> cases mutable

/-- The objects that the globals reach, when the module is frozen. -/
theorem Tracked.cell?_freeze (h : m.Tracked H) {a : Address} (ha : Reaches m.heap m.globals.roots a) :
    ∃ c, m.heap.cell? a = some c ∧ m.freeze.heap.cell? a = some c.freeze := by
  obtain ⟨c, hc⟩ := h.live_of_reaches ha
  exact ⟨c, hc, (Heap.cell?_freezeFrom_of_reaches ha).trans (congrArg _ hc)⟩

/-- A module is settled once it has been frozen. -/
theorem Tracked.settled_freeze (h : m.Tracked H) : Settled m.freeze.globals m.freeze.heap := by
  refine ⟨rfl, fun {a} ha => ?_⟩
  obtain ⟨c, -, hc⟩ := h.cell?_freeze (Heap.reaches_freezeFrom_iff.1 ha)
  exact ⟨c.freeze, hc, not_mutable_freeze c⟩

end Module

/-- After a module has been frozen no session changes its globals or any object that a global reached at the
time of the freeze: the object is still there, with the contents that it had, and frozen if it is a
container. -/
theorem session_after_freeze (name : String) (meter : Meter) (before after : List Step) :
    let m := ((Module.create name meter).run before).2
    let later := (m.freeze.run after).2
    later.globals = { m.globals with frozen := true } ∧
      ∀ a, Reaches m.heap m.globals.roots a →
        ∃ c, m.heap.cell? a = some c ∧ m.freeze.heap.cell? a = some c.freeze ∧
          later.heap.cell? a = some c.freeze := by
  obtain ⟨H, tracked⟩ :=
    (Module.session_right (Module.tracked_create name meter) before).tracked
  obtain ⟨globals, same⟩ :=
    (Module.session_right tracked.freeze after).kept tracked.settled_freeze
  refine ⟨globals, fun a ha => ?_⟩
  obtain ⟨c, hc, frozen⟩ := tracked.cell?_freeze ha
  exact ⟨c, hc, frozen, (same (Heap.reaches_freezeFrom_iff.2 ha)).trans frozen⟩

end Scriptlet
