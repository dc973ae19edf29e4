import Scriptlet.Proofs.Stepping.Halting
import Scriptlet.Proofs.Tracing.Brackets

/-!
# Recorded runs

While a run goes on, the calls on the stack are those that the recorded events say are open, and the counter of
the depth is their number. One step keeps this, whatever it does and whether or not it fails, so it holds of all
configurations of a run.
-/

namespace Scriptlet

open Scriptlet.Configuration (handing proceed start unwind)
open Trace (Event FitsFrom Tracer openAfter openCalls fitsFrom_append openAfter_append)

/-! ## Recorded events -/

/-- A tracer that is always made from the same sort of data keeps what the events make of the data. -/
theorem Trace.Tracer.observeAll_eq {α : Type} (tracer : α → Tracer) (step : α → Event → α)
    (observe_eq : ∀ a e, (tracer a).observe e = tracer (step a e)) (a : α) (es : List Event) :
    (tracer a).observeAll es = tracer (es.foldl step a) := by
  induction es generalizing a with
  | nil => rfl
  | cons e es ih => rw [List.foldl_cons, ← ih, ← observe_eq, Tracer.observeAll, List.foldl_cons, Tracer.observeAll]

theorem Trace.Tracer.observe_recording (events : List Event) (e : Event) :
    (Tracer.recording none events.toArray).observe e = .recording none (events ++ [e]).toArray := by
  simp [Tracer.observe]

theorem Trace.Tracer.observeAll_recording (events es : List Event) :
    (Tracer.recording none events.toArray).observeAll es = .recording none (events ++ es).toArray := by
  induction es generalizing events with
  | nil => rw [List.append_nil, Tracer.observeAll, List.foldl_nil]
  | cons e es ih =>
    rw [Tracer.observeAll, List.foldl_cons, Tracer.observe_recording]
    have rest := ih (events ++ [e])
    rw [Tracer.observeAll] at rest
    rw [rest, List.append_assoc, List.singleton_append]

/-- The machine has recorded these events, which fit and leave these calls open. -/
structure Machine.Records (limit : Nat) (opens : List String) (events : List Event) (m : Machine) :
    Prop where
  limit_eq : m.depthLimit = limit
  tracer_eq : m.tracer = .recording none events.toArray
  fits : FitsFrom limit [] events
  open_eq : openCalls events = opens

namespace Machine.Records

variable {limit : Nat} {opens : List String} {events : List Event} {m m' : Machine}

/-- One more event is recorded. -/
theorem observe (h : m.Records limit opens events) {e : Event} (he : e.Fits limit opens)
    (hlimit : m'.depthLimit = m.depthLimit) (told : m'.tracer = m.tracer.observe e) :
    m'.Records limit (e.after opens) (events ++ [e]) where
  limit_eq := hlimit.trans h.limit_eq
  tracer_eq := by rw [told, h.tracer_eq, Tracer.observe_recording]
  fits := by
    have opened := h.open_eq
    rw [openCalls] at opened
    exact fitsFrom_append.2 ⟨h.fits, opened.symm ▸ he, trivial⟩
  open_eq := by
    have opened := h.open_eq
    rw [openCalls] at opened ⊢
    rw [openAfter_append, opened]
    rfl

theorem leave {name : String} (h : m.Records limit (name :: opens) events) (hlimit : m'.depthLimit = m.depthLimit)
    (told : m'.tracer = m.tracer.observe (.leave name opens.length)) :
    m'.Records limit opens (events ++ [.leave name opens.length]) :=
  h.observe (e := .leave name opens.length) ⟨opens, rfl, rfl⟩ hlimit told

/-- Events of code that enters and leaves no call are recorded. -/
theorem advances (h : m.Records limit opens events) (advances : m.Advances opens.length m') :
    ∃ events', m'.Records limit opens events' := by
  obtain ⟨es, within, told⟩ := advances.told
  have quiet : FitsFrom limit opens es ∧ openAfter opens es = opens := by
    clear told
    induction es with
    | nil => exact ⟨trivial, rfl⟩
    | cons e es ih =>
      obtain ⟨fits, same⟩ := ih fun e' he' => within e' (List.mem_cons_of_mem _ he')
      have he := within e (by simp)
      cases e with
      | enter name depth => cases he
      | leave name depth => cases he
      | statement kind depth => exact ⟨⟨he, fits⟩, same⟩
      | makeFunction made defaults captures => exact ⟨⟨trivial, fits⟩, same⟩
      | outerLoad x levels => exact ⟨⟨trivial, fits⟩, same⟩
  have opened := h.open_eq
  rw [openCalls] at opened
  refine ⟨events ++ es, advances.limit.trans h.limit_eq, ?_, ?_, ?_⟩
  · rw [told, h.tracer_eq, Tracer.observeAll_recording]
  · exact fitsFrom_append.2 ⟨h.fits, opened.symm ▸ quiet.1⟩
  · rw [openCalls, openAfter_append, opened, quiet.2]

end Machine.Records

/-! ## The invariant -/

/-- The plans that wait on a stack open no call beyond the limit. -/
def Stack.Permitted (l : Library) (limit : Nat) {ω α : Type} : Stack ω α → Prop
  | .empty => True
  | .resume next rest =>
    (∀ a, (next a).EachCall l limit rest.calls.length fun j => j.depth ≤ limit) ∧
      rest.Permitted l limit
  | .leave _ _ rest => rest.Permitted l limit

namespace Configuration

variable {ω : Type} {m : Machine} {events : List Event} {α : Type} {stack : Stack ω α}

/-- The number of open calls as the machine counts them. -/
def depth : Configuration ω → Nat
  | .running _ _ depth _ => depth
  | .unwinding _ _ depth _ => depth
  | .halted _ => 0

/-- The calls that are open, the innermost first. -/
def calls : Configuration ω → List String
  | .running _ stack _ _ => stack.calls
  | .unwinding _ stack _ _ => stack.calls
  | .halted _ => []

def machine : Configuration ω → Machine
  | .running _ _ _ m => m
  | .unwinding _ _ _ m => m
  | .halted (.ok _ m) => m
  | .halted (.error _ m) => m

/-- The plans that are left to do open no call beyond the limit. -/
def Permitted (l : Library) (limit : Nat) : Configuration ω → Prop
  | .running p stack depth _ =>
    (p.EachCall l limit depth fun j => j.depth ≤ limit) ∧ stack.Permitted l limit
  | .unwinding _ stack _ _ => stack.Permitted l limit
  | .halted _ => True

/-- The counter of the depth, the stack and the recorded events agree on the calls that are open. -/
structure Tracked (l : Library) (limit : Nat) (c : Configuration ω) : Prop where
  depth_eq : c.depth = c.calls.length
  depth_le : c.depth ≤ limit
  permitted : c.Permitted l limit
  records : ∃ events, c.machine.Records limit c.calls events

variable {l : Library} {limit : Nat}

theorem tracked_start {p : Plan ω}
    (each : p.EachCall l limit 0 fun j => j.depth ≤ limit) (records : m.Records limit [] []) :
    (start p m).Tracked l limit :=
  ⟨rfl, Nat.zero_le _, ⟨each, trivial⟩, [], records⟩

/-- Leaving a call, with or without a failure. -/
theorem tracked_leave {name : String} {frame : Option Address} {stack : Stack ω Value}
    {x : Run Value} (within : stack.calls.length ≤ limit)
    (waiting : stack.Permitted l limit) (records : m.Records limit (name :: stack.calls) events)
    (hx : ∀ m, (∃ v, x m = .ok v m) ∨ ∃ f, x m = .error f m) :
    (handing stack stack.calls.length
      ((do Run.leaveCall name frame stack.calls.length; x : Run Value) m)).Tracked l limit := by
  obtain ⟨m', limit_eq, told, left | ⟨table, i, broken⟩⟩ :=
    Run.leaveCall_bind_cases name frame stack.calls.length m x
  · have recorded := records.leave limit_eq told
    rw [left]
    rcases hx m' with ⟨v, hv⟩ | ⟨f, hf⟩
    · rw [hv]
      exact ⟨rfl, within, ⟨Plan.eachCall_done v, waiting⟩, _, recorded⟩
    · rw [hf]
      exact ⟨rfl, within, waiting, _, recorded⟩
  · rw [broken]
    exact ⟨rfl, within, waiting, _, records.leave limit_eq told⟩

theorem tracked_proceed {a : α} (within : stack.calls.length ≤ limit) (waiting : stack.Permitted l limit)
    (records : m.Records limit stack.calls events) : (proceed a stack.calls.length m stack).Tracked l limit := by
  cases stack with
  | empty => exact ⟨rfl, Nat.zero_le _, trivial, events, records⟩
  | resume next rest => exact ⟨rfl, within, ⟨waiting.1 a, waiting.2⟩, events, records⟩
  | leave name frame rest =>
    exact tracked_leave (Nat.le_of_succ_le within) waiting records fun m => .inl ⟨a, rfl⟩

theorem tracked_unwind {f : Failure} (within : stack.calls.length ≤ limit) (waiting : stack.Permitted l limit)
    (records : m.Records limit stack.calls events) : (unwind f stack.calls.length m stack).Tracked l limit := by
  cases stack with
  | empty => exact ⟨rfl, Nat.zero_le _, trivial, events, records⟩
  | resume next rest => exact ⟨rfl, within, waiting.2, events, records⟩
  | leave name frame rest =>
    exact tracked_leave (Nat.le_of_succ_le within) waiting records
      fun m => .inr ⟨f.leaving name, rfl⟩

/-- One step keeps the counter, the stack and the recorded events in agreement. -/
theorem Tracked.step {c : Configuration ω} (h : c.Tracked l limit) : (c.step l).Tracked l limit := by
  obtain ⟨depth_eq, depth_le, permitted, events, records⟩ := h
  cases c with
  | halted r => exact ⟨depth_eq, depth_le, permitted, events, records⟩
  | unwinding f stack depth m =>
    obtain rfl : depth = stack.calls.length := depth_eq
    exact tracked_unwind depth_le permitted records
  | running p stack depth m =>
    obtain rfl : depth = stack.calls.length := depth_eq
    obtain ⟨each, waiting⟩ := permitted
    cases p with
    | done a => exact tracked_proceed depth_le waiting records
    | ask r next =>
      have ends := r.along_perform l stack.calls.length m
      cases answer : r.perform l stack.calls.length m with
      | ok b m' =>
        -- What the plan may do next depends on the answer: a call that was refused is not entered.
        have rest := Plan.eachCall_ask.1 each m b m' records.limit_eq answer
        rw [answer] at ends
        rw [step_ask_ok answer]
        cases ends with
        | ok advances => exact ⟨rfl, depth_le, ⟨rest, waiting⟩, records.advances advances⟩
      | error f m' =>
        rw [answer] at ends
        rw [step_ask_error answer]
        cases ends with
        | error advances => exact ⟨rfl, depth_le, waiting, records.advances advances⟩
    | recur t next =>
      obtain ⟨first, more⟩ := Plan.eachCall_recur.1 each
      have inner := t.smaller_plan (l := l) depth_le
      exact ⟨rfl, depth_le, ⟨inner.imp fun j hj => hj.1, more, waiting⟩, events, records⟩
    | enter name frame body next =>
      obtain ⟨first, more⟩ := Plan.eachCall_enter.1 each
      have inner := body.smaller_plan (l := l) first
      have entered : Machine.Records limit (name :: stack.calls)
          (events ++ [.enter name (stack.calls.length + 1)])
          { m with tracer := m.tracer.observe (.enter name (stack.calls.length + 1)) } :=
        records.observe (e := .enter name (stack.calls.length + 1)) ⟨rfl, first⟩ rfl rfl
      exact ⟨rfl, first, ⟨inner.imp fun j hj => hj.1, more, waiting⟩, _, entered⟩

/-- All configurations of a recorded run are in agreement with the recorded events. -/
theorem Tracked.iterate {c : Configuration ω} (h : c.Tracked l limit) (n : Nat) :
    ((Configuration.step l)^[n] c).Tracked l limit := by
  induction n with
  | zero => exact h
  | succ n ih =>
    rw [Function.iterate_succ_apply']
    exact ih.step

/-- After a call of a value, with or without a failure, as many calls are open as before. -/
theorem Tracked.call_returns {v : Value} {args : Call.Args} {next : Value → Plan α} {depth : Nat}
    (h : (Configuration.running (.recur (.call v args) next) stack depth m).Tracked l limit) :
    ∃ r, Reaches l (.running (.recur (.call v args) next) stack depth m)
      (handing (.resume next stack) depth r) := by
  obtain ⟨-, depth_le, -, events, records⟩ := h
  obtain ⟨delivered, -⟩ := Job.delivers l limit ⟨depth, .call v args⟩ depth_le (.resume next stack) m
    records.limit_eq
  exact ⟨_, .of_step delivered⟩

end Configuration

end Scriptlet
