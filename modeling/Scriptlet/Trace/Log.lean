import Scriptlet.Text.Padded
import Scriptlet.Trace.Event

/-!
# Call logs

A log for people to read: one line for each call that enters or leaves its body and for each function that
is made, indented by the depth of the calls. With a limit, the log ends with a notice after that many lines,
but never before the first.
-/

namespace Scriptlet.Trace

/-- A log. -/
structure Log where
  limit : Option Nat := none
  /-- The lines so far, the notice apart. -/
  lines : Array String := #[]
  /-- Whether the limit was reached and the notice given. -/
  stopped : Bool := false
  deriving DecidableEq, Inhabited

namespace Log

open Text (padRight spaces)

/-- The deepest indentation. -/
def maxIndent : Nat := 40

/-- The indentation for some depth. -/
def indent (depth : Nat) : String := spaces (min depth maxIndent * 2)

/-- The line for an event, if it has one. -/
def line? : Event → Option String
  | .enter name depth =>
    some (indent (depth - 1) ++ s!"  >>> CALL {padRight 20 name} depth={depth}")
  | .leave name depth =>
    some (indent depth ++ s!"  <<< RETURN {padRight 18 name} depth={depth}")
  | .makeFunction name defaults captures =>
    let kind := if captures then "CLOSURE" else "DEF"
    some (s!"  +++ {kind} {padRight 20 name} defaults={defaults}")
  | .statement .. => none
  | .outerLoad .. => none

/-- Adds a line, unless the log has ended. -/
def add (l : Log) (line : String) : Log :=
  if l.stopped then l
  else
    let lines := l.lines.push line
    { l with lines, stopped := l.limit.any (· ≤ lines.size) }

/-- Logs an event. -/
def observe (l : Log) (e : Event) : Log :=
  match line? e with
  | some line => l.add line
  | none => l

/-- The notice at the end of a log that reached its limit. -/
def notice? (l : Log) : Option String :=
  if l.stopped then l.limit.map fun n => s!"--- trace limit reached ({n} lines) ---" else none

/-- The whole log. -/
def text (l : Log) : String :=
  String.join ((l.lines.toList ++ l.notice?.toList).map (· ++ "\n"))

end Log

end Scriptlet.Trace
