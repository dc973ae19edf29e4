import Scriptlet.Machine.Call
import Scriptlet.Module.Basic

/-!
# Entries

The ways in which a host enters a module: running a program, evaluating an expression, calling a global, and
reading and assigning globals. Between two entries only the globals hold on to heap objects, so that is when
collection may run; while a program runs it may also run between two statements of the module level.
-/

namespace Scriptlet

open Call (Args)
open Trace (Tracer)

/-- How an entry ended. -/
structure Outcome (α : Type) where
  answer : Except Failure α
  tracer : Tracer
  /-- The module as the entry left it, also if it failed. -/
  after : Module

namespace Run

/-- Collects if it is time to. Only to be used when no call is open. -/
def collectIfDue : Run Unit := fun ⟨⟨heap, lexicon⟩, globals, tracer⟩ =>
  let heap := if heap.collectionDue then (heap.collect globals.roots).2 else heap
  .ok () ⟨⟨heap, lexicon⟩, globals, tracer⟩

/-- Runs the statements of the module level. -/
def execAll (k : Engine Machine) : List Code.Stmt → Run Unit
  | [] => return
  | s :: ss => do
    let _ ← k.execBlock [s]
    collectIfDue
    execAll k ss

/-- Runs a program at module level. -/
def execTop (l : Library) (program : List Code.Stmt) : Run Unit := fun m =>
  execAll (topLevel l m.store.heap.meter.depthLimit).engine program m

end Run

namespace Module

/-- Runs a computation of the machine on a module, and collects afterwards if it is time to. -/
def enter {α : Type} (m : Module) (tracer : Tracer) (x : Library → Run α) : Outcome α :=
  let { name, library, store, globals } := m
  match x library ⟨store, globals, tracer⟩ with
  | .ok a ⟨store, globals, tracer⟩ =>
    ⟨.ok a, tracer, Module.collectIfDue { name, library, store, globals }⟩
  | .error e ⟨store, globals, tracer⟩ =>
    ⟨.error e, tracer, Module.collectIfDue { name, library, store, globals }⟩

/-- Runs a program. A program that is refused does not run at all. -/
def exec (m : Module) (tracer : Tracer) (program : List Program.Stmt) : Outcome Unit :=
  match m.resolve (·.resolveProgram program) with
  | (.error defect, m) => ⟨raise (.malformed defect), tracer, m⟩
  | (.ok code, m) => m.enter tracer fun l => Run.execTop l code

/-- Evaluates an expression. -/
def eval (m : Module) (e : Program.Expr) : Outcome Object :=
  match m.resolve (·.resolveExpr e) with
  | (.error defect, m) => ⟨raise (.malformed defect), .silent, m⟩
  | (.ok code, m) => m.enter .silent fun l => do
    let v ← Run.evalTop l code
    Run.inspect (v.unfold l)

/-- The arguments of a call by the host. -/
def buildArgs (positional : List Object) (keywords : List (String × Object)) : StoreM Args := do
  let positional ← positional.mapM Object.build
  let keywords ← keywords.mapM fun (x, o) => do
    let v ← o.build
    Store.learn x
    return (x, v)
  return { positional, keywords }

/-- Calls a global with host objects. -/
def call (m : Module) (tracer : Tracer) (name : String) (positional : List Object)
    (keywords : List (String × Object)) : Outcome Object :=
  match m.globals.lookup m.library name with
  | .error e => ⟨.error e.failure, tracer, m⟩
  | .ok callee =>
    let { name, library, store, globals } := m
    match buildArgs positional keywords store with
    | .error e store => ⟨.error e, tracer, { name, library, store, globals }⟩
    | .ok args store =>
      Module.enter { name, library, store, globals } tracer fun l => do
        let v ← Run.call l callee args
        Run.inspect (v.unfold l)

/-- The object of a global, if the name is bound. -/
def get (m : Module) (name : String) : Attempt (Option Object) :=
  match m.globals.lookup m.library name with
  | .error _ => .ok none
  | .ok v => return some (← v.unfold m.library m.heap)

/-- Assigns a host object to a global. -/
def set (m : Module) (x : String) (o : Object) : Except Failure Unit × Module :=
  let { name, library, store, globals } := m
  match (do let v ← o.build; Store.learn x; return v : StoreM Value) store with
  | .error e store => (.error e, { name, library, store, globals })
  | .ok v store =>
    if globals.frozen then
      (raise (.frozenModule x), { name, library, store, globals })
    else
      (.ok (), { name, library, store, globals := globals.assign x v })

end Module

end Scriptlet
