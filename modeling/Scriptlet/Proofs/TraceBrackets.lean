import Scriptlet.Proofs.Tracing.Entries

/-!
# Traces are well bracketed

What an unlimited recorder sees of a program or of a call by the host is well bracketed, whether or not it fails,
and while it runs the counter of the depth is the number of calls that are open.
-/

namespace Scriptlet

open Scriptlet.Configuration (handing step)
open Trace (Event WellBracketed openCalls)

/-- The events that are recorded when a program runs or a global is called are well bracketed: each call that is
entered is left by exactly one event of the same name, the calls are nested, all are closed at the end, each event
tells the right number of open calls, and no call is deeper than the limit. While the entry runs, the counter of
the depth is the number of open calls at every step, and after a call of a value it is what it was before. -/
theorem trace_wellBracketed (m : Module) {s : Step} (hs : s.Recorded) :
    ∃ events, (m.step s).1.tracer = .recording none events ∧
      WellBracketed m.heap.meter.depthLimit events.toList ∧
      ∀ l c, m.start? s = some (l, c) →
        (∃ n r, (step l)^[n] c = .halted r ∧ (m.step s).1 = .ofResult r) ∧
        (∀ n, ((step l)^[n] c).depth = ((step l)^[n] c).calls.length ∧
          ∃ told, ((step l)^[n] c).machine.tracer = .recording none told ∧
            openCalls told.toList = ((step l)^[n] c).calls) ∧
        ∀ n {α : Type} v args (next : Value → Plan α) stack depth machine,
          (step l)^[n] c = .running (.recur (.call v args) next) stack depth machine →
            ∃ k r, (step l)^[k + n] c = handing (.resume next stack) depth r := by
  cases starts : m.start? s with
  | none =>
    obtain ⟨f, -, failed⟩ := Module.start?_eq_none hs starts
    refine ⟨#[], by rw [failed]; rfl, ?_, fun l c h => by cases h⟩
    have quiet : Trace.FitsFrom m.heap.meter.depthLimit [] [] := trivial
    exact quiet.wellBracketed rfl
  | some entry =>
    obtain ⟨l, c⟩ := entry
    obtain ⟨tracked, -⟩ := Module.start?_tracked hs starts
    obtain ⟨r, ⟨n, halts⟩, replied, -⟩ := Module.start?_halts starts
    obtain ⟨-, -, -, events, records⟩ := tracked.iterate n
    rw [halts] at records
    have recorded : (m.step s).1.tracer = .recording none events.toArray := by
      rw [replied]
      cases r <;> exact records.tracer_eq
    refine ⟨events.toArray, recorded, ?_, ?_⟩
    · rw [List.toList_toArray]
      exact records.fits.wellBracketed records.open_eq
    · intro l' c' h
      cases h
      refine ⟨⟨n, r, halts, replied⟩, fun k => ?_, ?_⟩
      · obtain ⟨depth_eq, -, -, told, records⟩ := tracked.iterate k
        exact ⟨depth_eq, told.toArray, records.tracer_eq, by simpa using records.open_eq⟩
      · intro k α v args next stack depth machine running
        have here := tracked.iterate k
        rw [running] at here
        obtain ⟨r', n', reached⟩ := here.call_returns
        refine ⟨n', r', ?_⟩
        rw [Function.iterate_add_apply, running, reached]

/-- The functions that were entered, if the tracer is a recorder. -/
def Trace.Tracer.entered : Tracer → List String
  | .recording _ events => events.toList.filterMap Event.entered?
  | _ => []

theorem trace_wellBracketed_lengthOfNone :
    (Step.exec .recorder lengthOfNone).Recorded ∧
      ∃ events, (lengthModule.step (.exec .recorder lengthOfNone)).1.tracer = .recording none events ∧
        events.toList.filterMap Event.entered? = ["f", "len"] ∧
        WellBracketed lengthModule.heap.meter.depthLimit events.toList := by
  have entered : (lengthModule.step (.exec .recorder lengthOfNone)).1.tracer.entered = ["f", "len"] := by
    decide +kernel
  obtain ⟨events, recorded, bracketed, -⟩ := trace_wellBracketed lengthModule (.exec lengthOfNone)
  rw [recorded] at entered
  exact ⟨.exec lengthOfNone, events, recorded, entered, bracketed⟩

end Scriptlet
