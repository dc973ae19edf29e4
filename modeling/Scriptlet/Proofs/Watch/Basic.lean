import Scriptlet.Module.Session
import Scriptlet.Proofs.Code.Needs

/-!
# Watched runs

A watched run does what the machine does and keeps a history beside it: which calls were opened, in which call
each function value was made and with which defaults, and which variables each call has assigned. It also notes
each moment at which code asks something of the machine. The history is never looked at by the run, so a watched
run ends like the run itself; it is what statements about all states of a run are made of.
-/

namespace Scriptlet

open Call (Args)
open Code (Name Need)
open Heap (Closure)
open Trace (Tracer)

/-- One call of a function. -/
structure CallRecord where
  function : FunctionId
  /-- Where the variables of the call are. -/
  frame : Address
  /-- The calls that were opened before this one. -/
  number : Nat
  deriving DecidableEq, Inhabited

/-- A call, the call in which its function value was made, the call in which the function value of that one was
made, and so on. At module level there is none. -/
abbrev Lineage := List CallRecord

/-- The frame of the first call of a lineage. -/
def Lineage.frame? (L : Lineage) : Option Address := L.head?.map CallRecord.frame

/-- The values of a call, with its keywords as strings. -/
def Call.Args.operands (args : Args) : List Value :=
  args.positional ++ args.keywords.flatMap fun e => [.text e.1, e.2]

/-- The call whose variable a name is, for code that runs in a call of some lineage; none for a global. -/
def Code.Name.call? (x : Name) (L : Lineage) : Option CallRecord :=
  match x.scope with
  | .global => none
  | .own => L[0]?
  | .outer levels => L[levels]?

/-- Something that a run has done. -/
inductive Deed where
  /-- A function value was made in a call of lineage `maker`. -/
  | made (a : Address) (maker : Lineage) (function : FunctionId) (defaults : List Value)
  /-- A value was called. The frame of the call is in place on the machine and its body has not started. -/
  | opened (callee : Value) (args : Args) (call : CallRecord) (machine : Machine)

/-- How a function value came about. -/
structure Birth where
  maker : Lineage
  function : FunctionId
  defaults : List Value

/-- How the function value came about that was last made at an address; the last deed comes first. -/
def birth? (a : Address) : List Deed → Option Birth
  | [] => none
  | .made b maker function defaults :: earlier =>
    if b = a then some ⟨maker, function, defaults⟩ else birth? a earlier
  | .opened .. :: earlier => birth? a earlier

/-- What happened so far. -/
structure History where
  /-- The calls that were opened. -/
  calls : Nat := 0
  /-- Of the frame of a call, the lineage of the call; of a function value, the lineage of the call that made
  it. -/
  origin : Address → Lineage := fun _ => []
  /-- The variables that a call has assigned, with its parameters. -/
  assigned : CallRecord → List String := fun _ => []
  /-- The function values that were made and the calls that were opened, the last one first. -/
  journal : List Deed := []

namespace History

/-- The history after a value was called and the call was opened. -/
def opened (H : History) (r : CallRecord) (maker : Lineage) (params : List String) (callee : Value)
    (args : Args) (machine : Machine) : History where
  calls := H.calls + 1
  origin a := if a = r.frame then r :: maker else H.origin a
  assigned q := if q = r then params else H.assigned q
  journal := .opened callee args r machine :: H.journal

/-- The history after a function value was made in a call. -/
def made (H : History) (a : Address) (maker : Lineage) (function : FunctionId) (defaults : List Value) : History :=
  { H with
    origin := fun b => if b = a then maker else H.origin b
    journal := .made a maker function defaults :: H.journal }

/-- The history after a variable was assigned. -/
def stored (H : History) (r : CallRecord) (x : String) : History :=
  { H with assigned := fun q => if q = r then x :: H.assigned q else H.assigned q }

end History

/-- A moment at which code asks something of the machine. -/
structure Moment where
  /-- The activation whose code runs. -/
  activation : Activation
  lineage : Lineage
  /-- The variable that is to be read or assigned or the function that is to be made, if it is that. -/
  need : Option Need
  /-- The values that the request is about, with the keywords of a call as strings. -/
  operands : List Value
  machine : Machine
  history : History

/-- The state of a watched run. -/
structure Watch where
  machine : Machine
  history : History
  /-- The moments of the run, the last one first. -/
  moments : List Moment := []

/-- A watched computation. -/
abbrev Watched := EStateM Failure Watch

namespace Watched

/-- Runs a computation of the machine. -/
def onMachine {α : Type} (x : Run α) : Watched α := fun ⟨machine, history, moments⟩ =>
  match x machine with
  | .ok a machine => .ok a ⟨machine, history, moments⟩
  | .error e machine => .error e ⟨machine, history, moments⟩

/-- Notes a moment. -/
def note (act : Activation) (L : Lineage) (need : Option Need) (operands : List Value) :
    Watched Unit := fun ⟨machine, history, moments⟩ =>
  .ok () ⟨machine, history, ⟨act, L, need, operands, machine, history⟩ :: moments⟩

/-- Adds to the history. -/
def record (f : History → History) : Watched Unit := fun ⟨machine, history, moments⟩ =>
  .ok () ⟨machine, f history, moments⟩

/-- Notes a moment and runs a computation of the machine. -/
def during {α : Type} (act : Activation) (L : Lineage) (need : Option Need) (operands : List Value)
    (x : Run α) : Watched α := do
  note act L need operands
  onMachine x

/-- The lineage of the call that made a function value. -/
def makerOf (v : Value) : Watched Lineage := fun w =>
  .ok (v.address?.elim [] w.history.origin) w

/-- Opens a call. -/
def openCall (id : FunctionId) (frame : Address) (maker : Lineage) (params : List String)
    (callee : Value) (args : Args) : Watched CallRecord := fun ⟨machine, history, moments⟩ =>
  let r : CallRecord := { function := id, frame, number := history.calls }
  .ok r ⟨machine, history.opened r maker params callee args machine, moments⟩

end Watched

namespace Activation

open Watched (during note onMachine record)

/-- Assigns to a variable. -/
def watchedStore (act : Activation) (L : Lineage) (x : Name) (v : Value) : Watched Unit := do
  during act L (some (.store x)) [v] (act.store x v)
  record fun H => (x.call? L).elim H (H.stored · x.text)

/-- Makes a function whose defaults have been evaluated. -/
def watchedFunction (act : Activation) (L : Lineage) (id : FunctionId) (defaults : List Value) :
    Watched Value := do
  let v ← during act L (some (.make id defaults.length)) defaults (act.makeFunction id defaults)
  record fun H => v.address?.elim H (H.made · L id defaults)
  return v

/-- What the machine offers to the code of an activation, watched; `call` is how a watched call is made. -/
def watched (act : Activation) (L : Lineage) (call : Value → Args → Watched Value) : Engine Watch where
  load x := during act L (some (.load x)) [] (act.load x)
  store := act.watchedStore L
  list items := during act L none items (act.engine.list items)
  tuple items := during act L none items (act.engine.tuple items)
  key v := during act L none [v] (act.engine.key v)
  dict entries := during act L none (entries.values.flatMap fun e => [e.1, e.2]) (act.engine.dict entries)
  item container index := during act L none [container, index] (act.engine.item container index)
  setItem container index value :=
    during act L none [container, index, value] (act.engine.setItem container index value)
  attr object attr := during act L none [object] (act.engine.attr object attr)
  binary op left right := during act L none [left, right] (act.engine.binary op left right)
  augment op current operand := during act L none [current, operand] (act.engine.augment op current operand)
  compare op left right := during act L none [left, right] (act.engine.compare op left right)
  negate v := during act L none [v] (act.engine.negate v)
  truthy v := during act L none [v] (act.engine.truthy v)
  items v := during act L none [v] (act.engine.items v)
  keywords v := during act L none [v] (act.engine.keywords v)
  function := act.watchedFunction L
  call v args := do
    note act L none (v :: args.operands)
    call v args
  begin kind := during act L none [] (act.begin kind)

end Activation

namespace Watched

/-- Calls a function value `callee` that was made in a call of lineage `maker`. -/
def callFunction (l : Library) (depth : Nat) (plain : Value → Args → Run Value)
    (call : Value → Args → Watched Value) (callee : Value) (maker : Lineage) (c : Closure)
    (args : Args) : Watched Value := do
  let f ← onMachine (Run.inspect fun _ => l.function c.function)
  let bindings ← onMachine (Run.onStore (Store.onHeap
    (f.signature.bind f.name c.defaults args)))
  let a ← onMachine (Run.onStore (Store.onHeap
    (Heap.allocate (.frame { vars := .ofList bindings, parent := c.frame }))))
  let r ← openCall c.function a maker (bindings.map Prod.fst) callee args
  onMachine (Run.observe (.enter f.name depth))
  let act : Activation := { library := l, depth, frame := some a, call := plain }
  Run.guarded f.name (do note act (r :: maker) none []; act.watched (r :: maker) call |>.execBody f.body)
    (onMachine do
      Run.observe (.leave f.name (depth - 1))
      Run.onStore (Store.onHeap (Heap.releaseFrame a)))

/-- Calls a value when `limit - budget` calls are open and `budget` more may be opened. -/
def callWithin (l : Library) (limit : Nat) : (budget : Nat) → Value → Args → Watched Value
  | 0, v, args => onMachine (Run.callWithin l limit 0 v args)
  | budget + 1, v, args => do
    match ← onMachine (Run.inspect v.callee) with
    | .function c =>
      let maker ← makerOf v
      callFunction l (limit - budget) (Run.callWithin l limit budget) (callWithin l limit budget) v maker
        c args
    | .native id receiver => onMachine (Run.callNative l (limit - budget) id receiver args)

/-- Calls a value when no call is open. -/
def call (l : Library) (v : Value) (args : Args) : Watched Value := fun w =>
  let limit := w.machine.store.heap.meter.depthLimit
  callWithin l limit limit v args w

/-- What the machine offers to code at module level. -/
def topLevel (l : Library) (limit : Nat) : Engine Watch :=
  (Run.topLevel l limit).watched [] (callWithin l limit limit)

/-- Evaluates an expression at module level. -/
def evalTop (l : Library) (e : Code.Expr) : Watched Value := fun w =>
  (topLevel l w.machine.store.heap.meter.depthLimit).eval e w

/-- Runs the statements of the module level. -/
def execAll (k : Engine Watch) : List Code.Stmt → Watched Unit
  | [] => return
  | s :: ss => do
    let _ ← k.execBlock [s]
    onMachine Run.collectIfDue
    execAll k ss

/-- Runs a program at module level. -/
def execTop (l : Library) (program : List Code.Stmt) : Watched Unit := fun w =>
  execAll (topLevel l w.machine.store.heap.meter.depthLimit) program w

end Watched

/-! ## Watched sessions -/

/-- What a watched step gives: the reply and the module after the step, the history, and the moments of the
step. -/
structure Watching where
  result : Reply × Module
  history : History
  moments : List Moment := []

namespace Module

/-- Runs a watched computation on a module, and collects afterwards if it is time to. -/
def enterWatched {α : Type} (m : Module) (H : History) (tracer : Tracer) (f : α → Answer)
    (x : Library → Watched α) : Watching :=
  let { name, library, store, globals } := m
  match x library ⟨⟨store, globals, tracer⟩, H, []⟩ with
  | .ok a ⟨⟨store, globals, tracer⟩, H, moments⟩ =>
    ⟨reply f ⟨.ok a, tracer, Module.collectIfDue { name, library, store, globals }⟩, H, moments⟩
  | .error e ⟨⟨store, globals, tracer⟩, H, moments⟩ =>
    ⟨reply f ⟨.error e, tracer, Module.collectIfDue { name, library, store, globals }⟩, H, moments⟩

/-- Answers a request and watches the run that it starts, if it starts one. -/
def stepWatched (m : Module) (H : History) : Step → Watching
  | .exec tracer program =>
    match m.resolve (·.resolveProgram program) with
    | (.error defect, m) => ⟨reply (fun (_ : Unit) => .done) ⟨raise (.malformed defect), tracer, m⟩, H, []⟩
    | (.ok code, m) => m.enterWatched H tracer (fun _ => .done) fun l => Watched.execTop l code
  | .eval e =>
    match m.resolve (·.resolveExpr e) with
    | (.error defect, m) => ⟨reply .object ⟨raise (.malformed defect), .silent, m⟩, H, []⟩
    | (.ok code, m) => m.enterWatched H .silent .object fun l => do
      let v ← Watched.evalTop l code
      Watched.onMachine (Run.inspect (v.unfold l))
  | .call tracer name positional keywords =>
    match m.globals.lookup m.library name with
    | .error e => ⟨reply .object ⟨.error e.failure, tracer, m⟩, H, []⟩
    | .ok callee =>
      let { name, library, store, globals } := m
      match buildArgs positional keywords store with
      | .error e store => ⟨reply .object ⟨.error e, tracer, { name, library, store, globals }⟩, H, []⟩
      | .ok args store =>
        Module.enterWatched { name, library, store, globals } H tracer .object fun l => do
          let v ← Watched.call l callee args
          Watched.onMachine (Run.inspect (v.unfold l))
  | s => ⟨m.step s, H, []⟩

/-- Answers requests one after another and watches the runs that they start. -/
def runWatched (m : Module) (H : History) : List Step → (List Reply × Module) × List Moment
  | [] => (([], m), [])
  | s :: ss =>
    let w := m.stepWatched H s
    let ((rs, after), moments) := w.result.2.runWatched w.history ss
    ((w.result.1 :: rs, after), w.moments ++ moments)

end Module

end Scriptlet
