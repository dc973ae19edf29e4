import Scriptlet.Module.Session

/-!
# Evaluation in steps

Evaluation written down once more, as a machine that takes one step after another. Recursion is a stack here,
and the calls that are open are a counter that goes up when a call is entered and down when it is left. Nothing
bounds the number of steps, and a call is refused only when the counter stands at the limit of the meter.

A task is one recursive call of the evaluator. Its plan says what happens until it is over: what is asked of the
machine, which tasks are run in between, and which of them run as the body of a call.
-/

namespace Scriptlet

open Call (Args)
open Code (Arg Body Expr Name Stmt Target)
open Fault (Cause)
open Heap (Closure Frame)
open Program (Comparison Operator)

/-! ## What is asked of the machine -/

/-- What evaluation asks of the machine, with the type of the answer. -/
inductive Request : Type → Type where
  | load (frame : Option Address) (x : Name) : Request Value
  | store (frame : Option Address) (x : Name) (v : Value) : Request Unit
  | list (vs : List Value) : Request Value
  | tuple (vs : List Value) : Request Value
  | key (v : Value) : Request Key
  | dict (entries : OrderedMap Key (Value × Value)) : Request Value
  | item (container index : Value) : Request Value
  | setItem (container index value : Value) : Request Unit
  | attr (object : Value) (attr : String) : Request Value
  | binary (op : Operator) (left right : Value) : Request Value
  | augment (op : Operator) (current operand : Value) : Request Value
  | compare (op : Comparison) (left right : Value) : Request Bool
  | negate (v : Value) : Request Value
  | truthy (v : Value) : Request Bool
  | items (v : Value) : Request (List Value)
  | keywords (v : Value) : Request (List (String × Value))
  | function (frame : Option Address) (id : FunctionId) (defaults : List Value) : Request Value
  | begin (kind : Trace.StatementKind) : Request Unit
  | fail (cause : Cause) : Request Unit
  /-- What a value stands for in a call. -/
  | callee (v : Value) : Request Callee
  /-- Whether one more call may be entered. -/
  | checkDepth : Request Unit
  | definition (id : FunctionId) : Request Code.Function
  | bind (f : Code.Function) (c : Closure) (args : Args) : Request (List (String × Value))
  /-- A frame for a call. -/
  | newFrame (f : Frame) : Request Address
  | entry (id : NativeId) : Request NativeEntry
  /-- A run of a host function from its start to its end. -/
  | native (id : NativeId) (receiver : Option Value) (args : Args) : Request Value
  | collectIfDue : Request Unit
  | unfold (v : Value) : Request Object

/-- Refuses one more call when `depth` calls are open and the meter allows no more. -/
def Run.checkDepth (depth : Nat) : Run Unit := fun m =>
  match m.store.heap.meter.checkDepth depth with
  | .ok _ => .ok () m
  | .error use => .error (.ofCause (.exhausted use)) m

/-- Runs a host function of the table. -/
def Run.native (l : Library) (id : NativeId) (receiver : Option Value) (args : Args) : Run Value := do
  let e ← inspect fun _ => l.native id
  onStore (e.native.run l { name := e.name, receiver, args })

namespace Request

/-- Code in a frame with `depth` calls open. It makes no calls by itself, since calls are tasks. -/
def site (l : Library) (depth : Nat) (frame : Option Address) : Activation :=
  { library := l, depth, frame, call := fun _ _ => return .none }

/-- What the machine does when it is asked with `depth` calls open. -/
def perform (l : Library) (depth : Nat) {α : Type} : Request α → Run α
  | .load frame x => (site l depth frame).load x
  | .store frame x v => (site l depth frame).store x v
  | .list vs => Run.allocate (.list vs.toArray false)
  | .tuple vs => Run.allocate (.tuple vs.toArray)
  | .key v => Run.inspect v.key
  | .dict entries => Run.allocate (.dict entries false)
  | .item container index => Run.inspect fun h => container.item h index
  | .setItem container index value => Run.onStore (Store.onHeap (container.setItem index value))
  | .attr object x => Run.onStore (Store.readAttr l object x)
  | .binary op left right => Run.onStore (Store.onHeap (left.binary op right))
  | .augment op current operand => Run.onStore (Store.onHeap (current.augment op operand))
  | .compare op left right => Run.inspect fun h => left.holds h op right
  | .negate v => Run.inspect v.negate
  | .truthy v => Run.inspect v.truthy
  | .items v => Run.inspect v.items
  | .keywords v => Run.onStore (Store.spreadKeywords v)
  | .function frame id defaults => (site l depth frame).makeFunction id defaults
  | .begin kind => (site l depth none).begin kind
  | .fail cause => raise cause
  | .callee v => Run.inspect v.callee
  | .checkDepth => Run.checkDepth depth
  | .definition id => Run.inspect fun _ => l.function id
  | .bind f c args => Run.onStore (Store.onHeap (f.signature.bind f.name c.defaults args))
  | .newFrame f => Run.onStore (Store.onHeap (Heap.allocate (.frame f)))
  | .entry id => Run.inspect fun _ => l.native id
  | .native id receiver args => Run.native l id receiver args
  | .collectIfDue => Run.collectIfDue
  | .unfold v => Run.inspect (v.unfold l)

end Request

/-! ## Tasks and their plans -/

/-- A recursive call of the evaluator, with the type of its result. -/
inductive Task : Type → Type where
  | eval (frame : Option Address) (e : Expr) : Task Value
  | assign (frame : Option Address) (target : Target) (v : Value) : Task Unit
  | exec (frame : Option Address) (s : Stmt) : Task Flow
  | block (frame : Option Address) (stmts : List Stmt) : Task Flow
  | body (frame : Option Address) (b : Body) : Task Value
  | native (id : NativeId) (receiver : Option Value) (args : Args) : Task Value
  | call (v : Value) (args : Args) : Task Value
  | program (stmts : List Stmt) : Task Unit

/-- What is left to do until there is a result. -/
inductive Plan (α : Type) : Type 1 where
  | done (a : α)
  | ask {β : Type} (r : Request β) (next : β → Plan α)
  | recur {β : Type} (t : Task β) (next : β → Plan α)
  /-- Runs a task as the body of a call, which is entered before and left after. The frame of the call, if it has
  one, is released when it is left. -/
  | enter (name : String) (frame : Option Address) (body : Task Value) (next : Value → Plan α)

namespace Plan

/-- One plan after another. -/
protected def bind {α β : Type} : Plan α → (α → Plan β) → Plan β
  | .done a, f => f a
  | .ask r next, f => .ask r fun b => (next b).bind f
  | .recur t next, f => .recur t fun b => (next b).bind f
  | .enter name frame body next, f => .enter name frame body fun v => (next v).bind f

instance : Monad Plan where
  pure := .done
  bind := Plan.bind

/-- Asks the machine. -/
def request {α : Type} (r : Request α) : Plan α := .ask r .done

/-- Runs a task. -/
def run {α : Type} (t : Task α) : Plan α := .recur t .done

variable (frame : Option Address)

/-- Evaluates expressions from left to right. -/
def evalAll : List Expr → Plan (List Value)
  | [] => return []
  | e :: es => do
    let v ← run (.eval frame e)
    let vs ← evalAll es
    return v :: vs

/-- Evaluates dictionary entries on top of some entries. -/
def evalEntries (entries : OrderedMap Key (Value × Value)) :
    List (Expr × Expr) → Plan (OrderedMap Key (Value × Value))
  | [] => return entries
  | (index, value) :: es => do
    let i ← run (.eval frame index)
    let v ← run (.eval frame value)
    let key ← request (.key i)
    evalEntries (entries.insert key (i, v)) es

/-- Evaluates arguments from left to right. -/
def evalArgs : List Arg → Plan Args
  | [] => return {}
  | .positional e :: more => do
    let v ← run (.eval frame e)
    let args ← evalArgs more
    return args.consPositional [v]
  | .keyword x e :: more => do
    let v ← run (.eval frame e)
    let args ← evalArgs more
    return args.consKeywords [(x, v)]
  | .spread e :: more => do
    let v ← run (.eval frame e)
    let items ← request (.items v)
    let args ← evalArgs more
    return args.consPositional items
  | .spreadKeywords e :: more => do
    let v ← run (.eval frame e)
    let keywords ← request (.keywords v)
    let args ← evalArgs more
    return args.consKeywords keywords

/-- Evaluates an expression. -/
def eval : Expr → Plan Value
  | .literal l => return l.value
  | .name x => request (.load frame x)
  | .list items => do
    let items ← evalAll frame items
    request (.list items)
  | .tuple items => do
    let items ← evalAll frame items
    request (.tuple items)
  | .dict entries => do
    let entries ← evalEntries frame .empty entries
    request (.dict entries)
  | .index object index => do
    let object ← run (.eval frame object)
    let index ← run (.eval frame index)
    request (.item object index)
  | .attr object attr => do
    let object ← run (.eval frame object)
    request (.attr object attr)
  | .call callee args => do
    let callee ← run (.eval frame callee)
    let args ← evalArgs frame args
    run (.call callee args)
  | .binary left op right => do
    let left ← run (.eval frame left)
    let right ← run (.eval frame right)
    request (.binary op left right)
  | .compare left op right => do
    let left ← run (.eval frame left)
    let right ← run (.eval frame right)
    let b ← request (.compare op left right)
    return .bool b
  | .not operand => do
    let v ← run (.eval frame operand)
    let b ← request (.truthy v)
    return .bool !b
  | .neg operand => do
    let v ← run (.eval frame operand)
    request (.negate v)
  | .and left right => do
    let v ← run (.eval frame left)
    if ← request (.truthy v) then run (.eval frame right) else return v
  | .or left right => do
    let v ← run (.eval frame left)
    if ← request (.truthy v) then return v else run (.eval frame right)
  | .cond test body orelse => do
    let v ← run (.eval frame test)
    if ← request (.truthy v) then run (.eval frame body) else run (.eval frame orelse)
  | .function id defaults => do
    let defaults ← evalAll frame defaults
    request (.function frame id defaults)

/-- Assigns values to targets, one by one. -/
def assignAll : List Target → List Value → Plan Unit
  | t :: ts, v :: vs => do
    run (.assign frame t v)
    assignAll ts vs
  | _, _ => return

/-- Assigns a value to a target. -/
def assign : Target → Value → Plan Unit
  | .name x, v => request (.store frame x v)
  | .index object index, v => do
    let object ← run (.eval frame object)
    let index ← run (.eval frame index)
    request (.setItem object index v)
  | .tuple targets, v => do
    let items ← request (.items v)
    if items.length = targets.length then assignAll frame targets items
    else request (.fail (.unpackMismatch items.length targets.length))

/-- `target op= e` -/
def augmentTarget (op : Operator) (e : Expr) : Target → Plan Unit
  | .name x => do
    let current ← request (.load frame x)
    let v ← run (.eval frame e)
    let updated ← request (.augment op current v)
    request (.store frame x updated)
  | .index object index => do
    let object ← run (.eval frame object)
    let index ← run (.eval frame index)
    let current ← request (.item object index)
    let v ← run (.eval frame e)
    let updated ← request (.augment op current v)
    request (.setItem object index updated)
  | .tuple _ => request (.fail (.malformed .tupleAugment))

/-- Runs a round of a loop for each item, until one leaves the loop or the call. -/
def rounds (target : Target) (body : List Stmt) : List Value → Plan Flow
  | [] => return .next
  | v :: vs => do
    run (.assign frame target v)
    match ← run (.block frame body) with
    | .leaveLoop => return .next
    | .result w => return .result w
    | .next => rounds target body vs
    | .nextRound => rounds target body vs

/-- Runs a statement. -/
def exec : Stmt → Plan Flow
  | .expr e => do
    let _ ← run (.eval frame e)
    return .next
  | .assign target e => do
    let v ← run (.eval frame e)
    run (.assign frame target v)
    return .next
  | .augment target op e => do
    augmentTarget frame op e target
    return .next
  | .branch test body orelse => do
    let v ← run (.eval frame test)
    if ← request (.truthy v) then run (.block frame body) else run (.block frame orelse)
  | .loop target iter body => do
    let v ← run (.eval frame iter)
    let items ← request (.items v)
    rounds frame target body items
  | .leaveLoop => return .leaveLoop
  | .nextRound => return .nextRound
  | .pass => return .next
  | .giveBack none => return .result .none
  | .giveBack (some e) => do
    let v ← run (.eval frame e)
    return .result v
  | .define x id defaults => do
    let defaults ← evalAll frame defaults
    let f ← request (.function frame id defaults)
    request (.store frame x f)
    return .next

/-- Runs statements until one of them does not simply go on. -/
def execBlock : List Stmt → Plan Flow
  | [] => return .next
  | s :: ss => do
    request (.begin s.kind)
    match ← run (.exec frame s) with
    | .next => execBlock ss
    | flow => return flow

/-- Runs the body of a function. -/
def execBody : Body → Plan Value
  | .expr e => run (.eval frame e)
  | .block stmts => do
    match ← run (.block frame stmts) with
    | .result v => return v
    | _ => return .none

omit frame in
/-- Calls a value. The depth is checked before the arguments are bound, and the call is entered when it has its
frame. -/
def call (v : Value) (args : Args) : Plan Value := do
  match ← request (.callee v) with
  | .function c =>
    request .checkDepth
    let f ← request (.definition c.function)
    let bindings ← request (.bind f c args)
    let a ← request (.newFrame { vars := .ofList bindings, parent := c.frame })
    .enter f.name (some a) (.body (some a) f.body) .done
  | .native id receiver =>
    request .checkDepth
    let e ← request (.entry id)
    .enter e.name none (.native id receiver args) .done

omit frame in
/-- Runs the statements of the module level. -/
def execAll : List Stmt → Plan Unit
  | [] => return
  | s :: ss => do
    let _ ← run (.block none [s])
    request .collectIfDue
    execAll ss

end Plan

/-- The plan of a task. -/
def Task.plan {α : Type} : Task α → Plan α
  | .eval frame e => .eval frame e
  | .assign frame target v => .assign frame target v
  | .exec frame s => .exec frame s
  | .block frame stmts => .execBlock frame stmts
  | .body frame b => .execBody frame b
  | .native id receiver args => .request (.native id receiver args)
  | .call v args => .call v args
  | .program stmts => .execAll stmts

/-! ## Steps -/

/-- What waits for a result, the innermost first, up to the end of a run with results in `ω`. -/
inductive Stack (ω : Type) : Type → Type 1 where
  | empty : Stack ω ω
  /-- A plan goes on with the result. -/
  | resume {α β : Type} (next : α → Plan β) (rest : Stack ω β) : Stack ω α
  /-- A call is left with the result. -/
  | leave (name : String) (frame : Option Address) (rest : Stack ω Value) : Stack ω Value

/-- The calls that are open, the innermost first. -/
def Stack.calls {ω α : Type} : Stack ω α → List String
  | .empty => []
  | .resume _ rest => rest.calls
  | .leave name _ rest => name :: rest.calls

/-- A state of the stepping machine, with the number of open calls as it counts them. -/
inductive Configuration (ω : Type) : Type 1 where
  | running {α : Type} (plan : Plan α) (stack : Stack ω α) (depth : Nat) (machine : Machine)
  /-- A failure is on its way out. -/
  | unwinding {α : Type} (failure : Failure) (stack : Stack ω α) (depth : Nat) (machine : Machine)
  | halted (result : EStateM.Result Failure Machine ω)

namespace Run

/-- Releases the frame of a call, if it has one. -/
def release : Option Address → Run Unit
  | none => return
  | some a => onStore (Store.onHeap (Heap.releaseFrame a))

/-- Leaves a call, after which `depth` calls are open. -/
def leaveCall (name : String) (frame : Option Address) (depth : Nat) : Run Unit := do
  observe (.leave name depth)
  release frame

end Run

namespace Configuration

variable {ω : Type}

/-- The result of a computation is handed to what waits for it. -/
def handing {α : Type} (stack : Stack ω α) (depth : Nat) :
    EStateM.Result Failure Machine α → Configuration ω
  | .ok a m => .running (.done a) stack depth m
  | .error f m => .unwinding f stack depth m

/-- Goes on with a result. -/
def proceed {α : Type} (a : α) (depth : Nat) (m : Machine) : Stack ω α → Configuration ω
  | .empty => .halted (.ok a m)
  | .resume next rest => .running (next a) rest depth m
  | .leave name frame rest =>
    handing rest (depth - 1) ((do Run.leaveCall name frame (depth - 1); return a : Run Value) m)

/-- Goes on with a failure. -/
def unwind {α : Type} (f : Failure) (depth : Nat) (m : Machine) : Stack ω α → Configuration ω
  | .empty => .halted (.error f m)
  | .resume _ rest => .unwinding f rest depth m
  | .leave name frame rest =>
    handing rest (depth - 1)
      ((do Run.leaveCall name frame (depth - 1); throw (f.leaving name) : Run Value) m)

/-- One step. -/
def step (l : Library) : Configuration ω → Configuration ω
  | .running (.done a) stack depth m => proceed a depth m stack
  | .running (.ask r next) stack depth m =>
    match r.perform l depth m with
    | .ok b m => .running (next b) stack depth m
    | .error f m => .unwinding f stack depth m
  | .running (.recur t next) stack depth m => .running t.plan (.resume next stack) depth m
  | .running (.enter name frame body next) stack depth m =>
    .running body.plan (.leave name frame (.resume next stack)) (depth + 1)
      { m with tracer := m.tracer.observe (.enter name (depth + 1)) }
  | .unwinding f stack depth m => unwind f depth m stack
  | .halted r => .halted r

/-- The start of a run with no call open. -/
def start (p : Plan ω) (m : Machine) : Configuration ω := .running p .empty 0 m

end Configuration

end Scriptlet
