import Scriptlet.Proofs.Dict.Sessions
import Scriptlet.Proofs.Heap.Leads
import Scriptlet.Proofs.Heap.ReachMatch
import Scriptlet.Proofs.Object.Depiction

/-!
# The stores of sessions

The stores that a session passes through are in order: all that their objects refer to is there, and dictionaries store
their entries under the keys of their indices. Building an object keeps a store in order.
-/

namespace Scriptlet

open Budget (Meter)

theorem Store.Sound.closed {l : Library} {s : Store} (sound : s.Sound l) : s.heap.Closed := by
  have live {a b : Address} (referent : (s.view l).referent a b) : ∃ d, s.heap.cell? a = some d := by
    rcases referent with ⟨-, d, found, -⟩ | ⟨-, f, found, -⟩
    · exact ⟨d, found⟩
    · exact ⟨.frame f, found⟩
  intro a c found b child
  cases c with
  | frame f =>
    obtain ⟨_, -, referent⟩ := exists_of_mem_left (sound.frame found).children child
    exact live referent
  | _ =>
    obtain ⟨_, -, referent⟩ := exists_of_mem_left (sound.object found Heap.CellKind.noConfusion).children child
    exact live referent

/-- A store is in order for a library. -/
structure Store.InOrder (l : Library) (s : Store) : Prop where
  sound : s.Sound l
  linked : l.Linked
  keyed : s.heap.Keyed

namespace Store.InOrder

variable {l : Library} {s s' : Store} {o : Object} {v : Value}

theorem tidy (order : s.InOrder l) : s.heap.Tidy := order.keyed.tidy

theorem build (order : s.InOrder l) (ran : o.build s = .ok v s') : s'.InOrder l := by
  have built := (Store.soundness_rules order.linked).build o ⟨rfl, rfl, order.sound⟩
  have keeps : Along.Ends Store.Keeps s (o.build s) := o.keeps_buildWithin _ s
  rw [ran] at built keeps
  cases keeps with
  | ok keeps =>
    cases built with
    | ok _ states _ =>
      obtain ⟨rfl, -, sound⟩ := states
      exact ⟨sound, order.linked, (keeps order.keyed).1⟩

end Store.InOrder

/-- A session passes through a store, with a library: at a moment at which code asks something of the machine, or when
the session ends. -/
inductive Module.Passes (m : Module) (steps : List Step) : Library → Store → Prop where
  | during {μ : Moment} (noted : μ ∈ (m.runWatched {} steps).2) :
      Passes m steps μ.activation.library μ.machine.store
  | after : Passes m steps (m.run steps).2.library (m.run steps).2.store

theorem Module.Passes.inOrder {name : String} {meter : Meter} {steps : List Step} {l : Library} {s : Store}
    (passes : (create name meter).Passes steps l s) : s.InOrder l := by
  have session := session_right (tracked_create name meter) steps
  obtain ⟨after, moments⟩ := keyed_runWatched (m := .create name meter) (Heap.keyed_empty meter) {} steps
  cases passes with
  | @during μ noted =>
    obtain ⟨⟨word, right⟩, -, linked⟩ := session.moments μ noted
    exact ⟨right.tracked.sound.store, linked, moments μ noted⟩
  | after =>
    obtain ⟨H, tracked⟩ := session.tracked
    rw [session.result] at after
    exact ⟨tracked.machine.sound.store, tracked.linked, after⟩

end Scriptlet
