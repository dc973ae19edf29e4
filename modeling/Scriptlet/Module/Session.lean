import Scriptlet.Heap.Census
import Scriptlet.Module.Entry

/-!
# Sessions

All that a host can ask of a module, as steps with replies. A session is a sequence of steps, each on the
module that the step before it left.
-/

namespace Scriptlet

open Budget (Counters Limits)
open Trace (Tracer)

/-- A request to a module. -/
inductive Step where
  | exec (tracer : Tracer) (program : List Program.Stmt)
  | eval (e : Program.Expr)
  | call (tracer : Tracer) (name : String) (positional : List Object)
      (keywords : List (String × Object))
  | get (name : String)
  | set (name : String) (o : Object)
  | names
  | name
  | addBuiltin (name : String) (native : HostFunction)
  | addMethod (type : ValueType) (attr : String) (native : HostFunction)
  | methodNames (type : ValueType)
  | freeze
  | isFrozen
  | collect
  | census
  | usage
  deriving Inhabited

/-- What a module answers. -/
inductive Answer where
  | done
  | object (o : Object)
  | unbound
  | names (xs : List String)
  | name (x : String)
  | flag (b : Bool)
  | count (n : Nat)
  /-- The objects on the heap and the number of words known. -/
  | census (c : Heap.Census) (words : Nat)
  /-- The counters and the limits of a module that is metered in full. -/
  | usage (u : Option (Counters × Limits))
  | failed (e : Failure)
  deriving DecidableEq

/-- An answer and what the tracer has kept. -/
structure Reply where
  answer : Answer
  tracer : Tracer := .silent

namespace Answer

/-- The answer to an entry. -/
def ofExcept {α : Type} (f : α → Answer) : Except Failure α → Answer
  | .ok a => f a
  | .error e => .failed e

end Answer

namespace Module

/-- The reply to an entry and the module after it. -/
def reply {α : Type} (f : α → Answer) (o : Outcome α) : Reply × Module :=
  (⟨.ofExcept f o.answer, o.tracer⟩, o.after)

/-- The counters and limits, if the module is metered in full. -/
def usage (m : Module) : Option (Counters × Limits) := do
  return (← m.heap.meter.counters?, ← m.heap.meter.limits?)

/-- Answers a request. -/
def step (m : Module) : Step → Reply × Module
  | .exec tracer program => reply (fun _ => .done) (m.exec tracer program)
  | .eval e => reply .object (m.eval e)
  | .call tracer name positional keywords =>
    reply .object (m.call tracer name positional keywords)
  | .get name => (⟨.ofExcept (fun o => o.elim .unbound .object) ((m.get name).mapError Flaw.failure), .silent⟩, m)
  | .set name o =>
    let (result, m) := m.set name o
    (⟨.ofExcept (fun _ => .done) result, .silent⟩, m)
  | .names => (⟨.names m.names, .silent⟩, m)
  | .name => (⟨.name m.name, .silent⟩, m)
  | .addBuiltin name native => (⟨.done, .silent⟩, m.provide name native)
  | .addMethod type attr native => (⟨.done, .silent⟩, m.addMethod type attr native)
  | .methodNames type => (⟨.names (m.library.methodNames type), .silent⟩, m)
  | .freeze => (⟨.done, .silent⟩, m.freeze)
  | .isFrozen => (⟨.flag m.globals.frozen, .silent⟩, m)
  | .collect =>
    let (freed, m) := m.collect
    (⟨.count freed, .silent⟩, m)
  | .census => (⟨.census m.heap.census m.store.lexicon.size, .silent⟩, m)
  | .usage => (⟨.usage m.usage, .silent⟩, m)

/-- Answers requests one after another. -/
def run (m : Module) : List Step → List Reply × Module
  | [] => ([], m)
  | s :: ss =>
    let (r, m) := m.step s
    let (rs, m) := m.run ss
    (r :: rs, m)

end Module

end Scriptlet
