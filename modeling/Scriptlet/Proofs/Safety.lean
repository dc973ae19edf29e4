import Scriptlet.Proofs.Watch.Session

/-!
# No table is ever broken

In every session, whatever programs it runs, whatever host functions and host objects it is given and whatever
limits it has, every index into the heap, the tables of functions and of host functions, the defaults of a
function value and the parameters of a call is in range, and every word is known. Positions of lists and tuples
are in range by their type.

Nothing catches the failure of a broken table: it leaves every call, passes through host functions and ends the
step. So a step in which a table is broken would answer with that failure, also if it would have failed anyway.
-/

namespace Scriptlet

open Budget (Meter)

/-- At a moment, all that the heap, the globals and the values of the request refer to is there, and so is all
that the code which runs asks for. -/
structure Moment.Intact (μ : Moment) : Prop where
  machine : μ.machine.Sound μ.activation.library
  operands : (μ.machine.store.view μ.activation.library).values μ.operands μ.operands
  need : ∀ need ∈ μ.need, Code.Allowed μ.activation.library.functions
    (· ∈ μ.machine.store.lexicon.words) μ.lineage.length need

/-- All that the heap, the globals, the code and the names of host functions refer to is there. -/
structure Module.Intact (m : Module) : Prop where
  machine : Machine.Sound m.library ⟨m.store, m.globals, .silent⟩
  code : ∀ i < m.library.functions.size,
    ∃ n, Code.Defined m.library.functions (· ∈ m.store.lexicon.words) n ⟨i⟩
  linked : m.library.Linked
  builtins : ∀ {x id}, m.library.builtins.find? x = some id → x ∈ m.store.lexicon.words
  methods : ∀ {type x id}, m.library.method? type x = some id → x ∈ m.store.lexicon.words

theorem Moment.Proper.intact {μ : Moment} (h : μ.Proper) : μ.Intact := by
  obtain ⟨⟨word, right⟩, -⟩ := h
  exact ⟨right.tracked.sound, right.operands,
    fun need hneed => (right.need need hneed).1.mono (.refl _) right.tracked.words⟩

theorem Module.Tracked.intact {m : Module} {H : History} (h : m.Tracked H) : m.Intact :=
  ⟨h.machine.sound, h.draft.defined, h.linked, h.builtins, h.methods⟩

/-- No step of a session answers that a table is broken. The watched session is the session itself, and at each
moment at which code asks something of the machine all that is referred to is there; so it is in the module that
the session leaves. -/
theorem session_unbroken (name : String) (meter : Meter) (steps : List Step) :
    (∀ r ∈ ((Module.create name meter).run steps).1, ∀ table index,
      r.answer ≠ .failed (.broken table index)) ∧
    ((Module.create name meter).runWatched {} steps).1 = (Module.create name meter).run steps ∧
    (∀ μ ∈ ((Module.create name meter).runWatched {} steps).2, μ.Intact) ∧
    ((Module.create name meter).run steps).2.Intact := by
  have session := Module.session_right (Module.tracked_create name meter) steps
  obtain ⟨H, tracked⟩ := session.tracked
  exact ⟨session.answers, session.result, fun μ hμ => (session.moments μ hμ).intact, tracked.intact⟩

end Scriptlet
