import Scriptlet.Trace.Log
import Scriptlet.Trace.Profile

/-!
# Tracers

A tracer is told each event of a run and keeps what it is for: nothing, the events themselves, a profile or
a log.
-/

namespace Scriptlet.Trace

/-- A tracer and what it has kept so far. -/
inductive Tracer where
  | silent
  /-- Keeps the first events, up to a limit if there is one. -/
  | recording (limit : Option Nat) (events : Array Event)
  | profiling (profile : Profile)
  | printing (log : Log)
  deriving Inhabited

namespace Tracer

/-- A tracer that records all events. -/
def recorder : Tracer := .recording none #[]

/-- Tells a tracer of an event. -/
def observe (t : Tracer) (e : Event) : Tracer :=
  match t with
  | .silent => .silent
  | .recording limit events =>
    if limit.any (· ≤ events.size) then .recording limit events
    else .recording limit (events.push e)
  | .profiling profile => .profiling (profile.observe e)
  | .printing log => .printing (log.observe e)

/-- Tells a tracer of some events in a row. -/
def observeAll (t : Tracer) (es : List Event) : Tracer := es.foldl observe t

end Tracer

end Scriptlet.Trace
