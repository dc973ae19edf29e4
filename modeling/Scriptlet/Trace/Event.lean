/-!
# Trace events

What a tracer is told about a run: each statement that starts, each call that enters and leaves its body,
each function that is made, and each read of a variable of an enclosing call.
-/

namespace Scriptlet.Trace

/-- The sorts of statement. -/
inductive StatementKind where
  | expr
  | assign
  | augment
  | branch
  | loop
  | leaveLoop
  | nextRound
  | pass
  | giveBack
  | define
  deriving DecidableEq, Inhabited

namespace StatementKind

def all : List StatementKind :=
  [.expr, .assign, .augment, .branch, .loop, .leaveLoop, .nextRound, .pass, .giveBack, .define]

def name : StatementKind → String
  | .expr => "expr"
  | .assign => "assign"
  | .augment => "aug_assign"
  | .branch => "if"
  | .loop => "for"
  | .leaveLoop => "break"
  | .nextRound => "continue"
  | .pass => "pass"
  | .giveBack => "return"
  | .define => "def"

def ofName? (s : String) : Option StatementKind := all.find? fun k => k.name = s

theorem ofName?_name (k : StatementKind) : ofName? k.name = some k := by
  cases k <;> decide

end StatementKind

/-- An event of a run. -/
inductive Event where
  /-- A statement is about to run, with `depth` calls open. -/
  | statement (kind : StatementKind) (depth : Nat)
  /-- A call has entered its body; `depth` calls are open, this one included. -/
  | enter (name : String) (depth : Nat)
  /-- A call has left its body, normally or not; `depth` calls are still open. -/
  | leave (name : String) (depth : Nat)
  /-- A function was made with so many default values. -/
  | makeFunction (name : String) (defaults : Nat) (captures : Bool)
  /-- A variable was read from a call that encloses the running one. -/
  | outerLoad (name : String) (levels : Nat)
  deriving DecidableEq, Inhabited

/-- The name of the function that an event says was entered. -/
def Event.entered? : Event → Option String
  | .enter name _ => some name
  | _ => none

end Scriptlet.Trace
