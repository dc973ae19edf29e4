import Scriptlet.Module.Session
import Scriptlet.Proofs.Along
import Scriptlet.Proofs.Heap.Changes

/-!
# Chronicled runs

A chronicled run does what the machine does and writes down each change of the heap beside it, in the order in which
the changes are made: every object that is allocated and every allocation that is refused, every object that is changed
or freed, every statement that is counted and all that the tracer is told, also if the tracer keeps none of it. The
chronicle is never looked at by the run, so a chronicled run ends like the run itself.

Each operation that can change the heap is taken apart here down to those of which one change is noted. What only looks
at the heap, meets words or concerns the globals is left to the machine.
-/

namespace Scriptlet

open Call (Args)
open Code (Name Signature)
open Fault (Cause)
open Heap (Cell Change Closure)
open Program (Operator)
open Trace (Event Tracer)

/-- The state of a chronicled run. -/
structure Chronicle where
  machine : Machine
  /-- What has happened so far, the first change first. -/
  past : List Change := []

/-- A chronicled computation. -/
abbrev Chronicled := EStateM Failure Chronicle

/-- Whether the variables of a call that is over can be freed. -/
def Heap.isReleased (h : Heap) (a : Address) : Attempt Bool :=
  if h.slots.size ≤ a.index then .error (.broken .heap a.index)
  else
    match h.cell? a with
    | some (.frame { captured := false, .. }) => .ok true
    | _ => .ok false

namespace Chronicled

variable {α : Type}

/-- Runs a computation of the machine of which nothing is noted. -/
def onMachine (x : Run α) : Chronicled α := fun ⟨machine, past⟩ =>
  match x machine with
  | .ok a machine => .ok a ⟨machine, past⟩
  | .error e machine => .error e ⟨machine, past⟩

/-- Runs a computation of the machine and notes what has happened to the heap by it. -/
def noting (x : Run α) (what : Except Failure α → Happening) : Chronicled α := fun ⟨machine, past⟩ =>
  match x machine with
  | .ok a after => .ok a ⟨after, past ++ [⟨machine.store.heap, what (.ok a), after.store.heap⟩]⟩
  | .error e after => .error e ⟨after, past ++ [⟨machine.store.heap, what (.error e), after.store.heap⟩]⟩

/-- Looks at the heap. -/
def inspect (f : Heap → Attempt α) : Chronicled α := onMachine (Run.inspect f)

/-- Meets a word. -/
def learn (w : String) : Chronicled Unit := onMachine (Run.onStore (Store.learn w))

/-- Puts an object on the heap, if the meter allows it. -/
def allocate (c : Cell) : Chronicled Address :=
  noting (Run.onStore (Store.onHeap (Heap.allocate c))) fun
    | .ok a => .allocated a c.size
    | .error _ => .refused

/-- A new object as a value. -/
def make (c : Cell) : Chronicled Value := do
  return .ref (← allocate c)

/-- Changes the object at an address in place. -/
def update (a : Address) (f : Cell → Cell) : Chronicled Unit :=
  noting (Run.onStore (Store.onHeap (modify fun h => h.update a f))) fun _ => .changed

/-- Tells the tracer of an event other than a statement. -/
def observe (e : Event) : Chronicled Unit := noting (Run.observe e) fun _ => .told e

/-- Counts a statement that is about to start and tells the tracer of it. -/
def begin (kind : Trace.StatementKind) (depth : Nat) : Chronicled Unit :=
  noting (do Run.onStore (Store.onHeap Run.tick); Run.observe (.statement kind depth)) fun
    | .ok _ => .started kind depth
    | .error _ => .stopped

/-- Refuses a call, as too many are open. -/
def bar (limit : Nat) : Chronicled α :=
  noting (raise (.exhausted (.depth limit (limit + 1)))) fun _ => .barred

/-! ## Freeing objects -/

/-- Frees the object at an address, if there is one. -/
def free (a : Address) : Chronicled Unit := fun ⟨⟨⟨heap, lexicon⟩, globals, tracer⟩, past⟩ =>
  match heap.cell? a with
  | none => .ok () ⟨⟨⟨heap, lexicon⟩, globals, tracer⟩, past⟩
  | some c =>
    .ok () ⟨⟨⟨heap.discard a, lexicon⟩, globals, tracer⟩, past ++ [⟨heap, .freed a c.size, heap.discard a⟩]⟩

/-- Frees objects one after another. -/
def freeAll : List Address → Chronicled Unit
  | [] => return
  | a :: as => do
    free a
    freeAll as

/-- Frees the variables of a call that is over, unless a function made in the call may still use them. -/
def releaseFrame (a : Address) : Chronicled Unit := do
  if ← inspect (·.isReleased a) then free a

/-- Frees all objects that no global reaches, and says how many. -/
def collect : Chronicled Nat := do
  let machine := (← get).machine
  let dead := machine.store.heap.unreached (machine.store.heap.mark machine.globals.roots)
  freeAll dead
  noting (Run.onStore (Store.onHeap (modify fun h => { h with sinceCollection := 0 }))) fun _ => .swept
  return dead.length

/-- Collects if it is time to. -/
def collectIfDue : Chronicled Unit := do
  if (← get).machine.store.heap.collectionDue then
    let _ ← collect

/-! ## Operators and containers -/

/-- The new object that an operator makes of two values. -/
def combine (op : Operator) (v w : Value) : Chronicled Value := do
  make (← inspect fun h => Value.combined h op v w)

/-- `v op w` -/
def binary (op : Operator) (v w : Value) : Chronicled Value :=
  match v, w with
  | .int m, .int n => inspect fun _ => Value.ofArithmetic (Integer.apply op m n)
  | v, w => combine op v w

/-- `v op= w` -/
def augment (op : Operator) (v w : Value) : Chronicled Value := do
  match ← inspect fun h => Value.extension h op v w with
  | none => binary op v w
  | some (a, more) =>
    update a (Heap.Edit.extend more).apply
    return v

/-- `container[index] = value` -/
def setItem (container index value : Value) : Chronicled Unit := do
  match container with
  | .ref a =>
    let e ← inspect fun h => do Value.itemEdit h (← h.read a) index value
    update a e.apply
  | _ => raise (.noItemAssignment (← inspect container.type))

/-- Changes a list in place. -/
def editList (callee : String) (v : Value) (e : Heap.Edit) : Chronicled Unit := do
  let a ← inspect fun h => v.openList h callee
  update a e.apply

/-- The keyword arguments for the entries of a spread dictionary. -/
def keywordsOf : List (Value × Value) → Chronicled (List (String × Value))
  | [] => return []
  | (k, v) :: es => do
    let x ← inspect k.asKeyword
    learn x
    let kvs ← keywordsOf es
    return (x, v) :: kvs

/-- The keyword arguments that a spread dictionary stands for. -/
def spreadKeywords (v : Value) : Chronicled (List (String × Value)) := do
  let entries ← inspect v.spreadKeywords
  keywordsOf entries

/-- `v.attr`: a field of a struct, or else a method of the value's type. -/
def readAttr (l : Library) (v : Value) (attr : String) : Chronicled Value := do
  match ← inspect fun h => v.field? h attr with
  | some w => return w
  | none =>
    let type ← inspect v.type
    match l.method? type attr with
    | some native => make (.method { receiver := v, native })
    | none => raise (.noAttribute type attr)

/-! ## Arguments and host objects -/

/-- Makes the tuple of the positional arguments that are left over. -/
def collectRest (s : Signature) (args : Args) : Chronicled (List (String × Value)) :=
  match s.rest with
  | none => return []
  | some x => do
    let a ← allocate (.tuple (args.positional.drop s.positional.length).toArray)
    return [(x, .ref a)]

/-- Makes the dictionary of the collected keywords. -/
def collectKeywords (s : Signature) (collected : List (String × Value)) : Chronicled (List (String × Value)) :=
  match s.keywords with
  | none => return []
  | some x => do
    let entries := collected.map fun kv => (Key.str kv.1, (Value.text kv.1, kv.2))
    let a ← allocate (.dict (.ofList entries) false)
    return [(x, .ref a)]

/-- Binds the arguments of a call to the parameters. -/
def bindArgs (s : Signature) (callee : String) (defaults : List Value) (args : Args) :
    Chronicled (List (String × Value)) :=
  if s.onlyPositional && args.keywords.isEmpty then
    inspect fun _ => s.bindPositional callee defaults args.positional
  else do
    let (named, collected) ← inspect fun _ => s.settle callee defaults args
    let (positional, keywordOnly) := named.splitAt s.positional.length
    let rest ← collectRest s args
    let keywords ← collectKeywords s collected
    return positional ++ rest ++ keywordOnly ++ keywords

/-- The value of an object nested in fewer than `n` containers. -/
def buildWithin : Nat → Object → Chronicled Value
  | 0, _ => raise .objectTooDeep
  | _ + 1, .none => return .none
  | _ + 1, .bool b => return .bool b
  | _ + 1, .int n => return .int n
  | _ + 1, .string s => make (.text s)
  | n + 1, .list items => do
    let items ← items.mapM (buildWithin n)
    make (.list items.toArray false)
  | n + 1, .tuple items => do
    let items ← items.mapM (buildWithin n)
    make (.tuple items.toArray)
  | n + 1, .dict pairs => do
    let entries ← pairs.foldlM (fun (entries : OrderedMap Key (Value × Value)) (k, v) => do
      let k ← buildWithin n k
      let v ← buildWithin n v
      let key ← inspect k.key
      return entries.insert key (k, v)) .empty
    make (.dict entries false)
  | n + 1, .struct fields => do
    let fields ← fields.foldlM (fun (fields : OrderedMap String Value) (x, v) => do
      let v ← buildWithin n v
      learn x
      return fields.insert x v) .empty
    make (.struct fields)
  | _ + 1, .described text => raise (.outputOnly (Object.described text).typeName)
  | _ + 1, .cycle text => raise (.outputOnly (Object.cycle text).typeName)

/-- The value of an object. -/
def build (o : Object) : Chronicled Value := buildWithin (Budget.maxDataDepth + 1) o

/-- The arguments of a call by the host. -/
def buildArgs (positional : List Object) (keywords : List (String × Object)) : Chronicled Args := do
  let positional ← positional.mapM build
  let keywords ← keywords.mapM fun (x, o) => do
    let v ← build o
    learn x
    return (x, v)
  return { positional, keywords }

open HostCode (attempt keep) in
/-- Runs a host program, where `obtained` are the values that operations gave so far. -/
def runHost (l : Library) (c : NativeCall) : HostCode → (obtained : List Value) → Chronicled Value
  | .giveBack v, obtained => return c.value obtained v
  | .fail e, _ => throw (.raised e)
  | .requireArity count next, obtained => do
    let r ← attempt (inspect fun _ => c.arity count)
    runHost l c (next r) obtained
  | .typeOf v next, obtained => do
    let type ← inspect (c.value obtained v).type
    runHost l c (next type) obtained
  | .textOf v next, obtained => do
    let text ← inspect (c.value obtained v).text?
    runHost l c (next text) obtained
  | .intOf v next, obtained => runHost l c (next (c.value obtained v).int?) obtained
  | .objectOf v next, obtained => do
    let o ← inspect ((c.value obtained v).unfold l)
    runHost l c (next o) obtained
  | .lengthOf v next, obtained => do
    let r ← attempt (inspect (c.value obtained v).length)
    runHost l c (next r) obtained
  | .newValue o next, obtained => do
    let r ← attempt (build o)
    runHost l c (next (keep obtained r).1) (keep obtained r).2
  | .newText s next, obtained => do
    let r ← attempt (make (.text s))
    runHost l c (next (keep obtained r).1) (keep obtained r).2
  | .newStruct next, obtained => do
    let r ← attempt (make (.struct (.ofList c.args.keywords)))
    runHost l c (next (keep obtained r).1) (keep obtained r).2
  | .push list item next, obtained => do
    let r ← attempt (editList c.name (c.value obtained list) (.extend [c.value obtained item]))
    runHost l c (next r) obtained
  | .clear list next, obtained => do
    let r ← attempt (editList c.name (c.value obtained list) .clear)
    runHost l c (next r) obtained

end Chronicled

/-! ## Code -/

namespace Activation

open Chronicled (inspect make observe onMachine update)

/-- Reads a variable of a frame that must have been assigned. -/
def chronicledLoadFrom (frame : Option Address) (x : String) : Chronicled Value := do
  match ← inspect fun h => h.variableIn frame x with
  | some v => return v
  | none => raise (.unassignedLocal x)

/-- Reads a variable. -/
def chronicledLoad (act : Activation) (x : Name) : Chronicled Value := do
  match x.scope with
  | .global => onMachine (Run.loadGlobal act.library x.text)
  | .own => chronicledLoadFrom act.frame x.text
  | .outer levels =>
    observe (.outerLoad x.text levels)
    chronicledLoadFrom (← inspect fun h => h.enclosing levels act.frame) x.text

/-- Assigns to a variable of a frame, and says whether there is such a frame. -/
def chronicledAssign (frame : Option Address) (x : String) (v : Value) : Chronicled Bool := do
  match frame with
  | none => return false
  | some a =>
    match ← inspect (·.read a) with
    | .frame _ =>
      update a (Cell.assign x v)
      return true
    | _ => return false

/-- Assigns to a variable. -/
def chronicledStore (act : Activation) (x : Name) (v : Value) : Chronicled Unit := do
  let frame ← inspect fun h => act.frameOf h x
  if ← chronicledAssign frame x.text v then return
  onMachine (Run.storeGlobal x.text v)

/-- Notes that a function is made in the call of a frame. -/
def chronicledCapture (frame : Option Address) : Chronicled Unit := do
  match frame with
  | none => return
  | some a =>
    match ← inspect (·.read a) with
    | .frame _ => update a Cell.capture
    | _ => return

/-- Makes a function whose defaults have been evaluated. -/
def chronicledFunction (act : Activation) (id : FunctionId) (defaults : List Value) : Chronicled Value := do
  let f ← inspect fun _ => act.library.function id
  observe (.makeFunction f.name f.signature.defaultsCount f.nested)
  if f.nested then
    chronicledCapture act.frame
  make (.closure
    { function := id, defaults, frame := if f.nested then act.frame else none })

/-- What the machine offers to the code of an activation, chronicled; `call` is how a chronicled call is made. -/
def chronicled (act : Activation) (call : Value → Args → Chronicled Value) : Engine Chronicle where
  load := act.chronicledLoad
  store := act.chronicledStore
  list items := make (.list items.toArray false)
  tuple items := make (.tuple items.toArray)
  key v := inspect v.key
  dict entries := make (.dict entries false)
  item container index := inspect fun h => container.item h index
  setItem := Chronicled.setItem
  attr object attr := Chronicled.readAttr act.library object attr
  binary := Chronicled.binary
  augment := Chronicled.augment
  compare op left right := inspect fun h => left.holds h op right
  negate v := inspect v.negate
  truthy v := inspect v.truthy
  items v := inspect v.items
  keywords := Chronicled.spreadKeywords
  function := act.chronicledFunction
  call := call
  begin kind := Chronicled.begin kind act.depth

end Activation

/-! ## Calls -/

namespace Chronicled

variable {α : Type}

/-- Runs the body of a call, which is entered before and left and cleaned up after. -/
def entered (name : String) (depth : Nat) (body : Chronicled Value) (cleanUp : Chronicled Unit) :
    Chronicled Value := do
  observe (.enter name depth)
  Run.guarded name body do
    observe (.leave name (depth - 1))
    cleanUp

/-- Calls a function; `plain` and `call` are how its body makes calls. -/
def callFunction (l : Library) (depth : Nat) (plain : Value → Args → Run Value)
    (call : Value → Args → Chronicled Value) (c : Closure) (args : Args) : Chronicled Value := do
  let f ← inspect fun _ => l.function c.function
  let bindings ← bindArgs f.signature f.name c.defaults args
  let a ← allocate (.frame { vars := .ofList bindings, parent := c.frame })
  let act : Activation := { library := l, depth, frame := some a, call := plain }
  entered f.name depth (act.chronicled call |>.execBody f.body) (releaseFrame a)

/-- Calls a host function. -/
def callNative (l : Library) (depth : Nat) (id : NativeId) (receiver : Option Value) (args : Args) :
    Chronicled Value := do
  let e ← inspect fun _ => l.native id
  let c : NativeCall := { name := e.name, receiver, args }
  entered e.name depth (runHost l c (e.native.code c.shape) []) (return)

/-- Calls a value when `limit - budget` calls are open and `budget` more may be opened. -/
def callWithin (l : Library) (limit : Nat) : (budget : Nat) → Value → Args → Chronicled Value
  | 0, v, _ => do
    let _ ← inspect v.callee
    bar limit
  | budget + 1, v, args => do
    match ← inspect v.callee with
    | .function c =>
      callFunction l (limit - budget) (Run.callWithin l limit budget) (callWithin l limit budget) c args
    | .native id receiver => callNative l (limit - budget) id receiver args

/-- What the machine offers to code at module level. -/
def topLevel (l : Library) (limit : Nat) : Engine Chronicle :=
  (Run.topLevel l limit).chronicled (callWithin l limit limit)

/-- Runs the statements of the module level. -/
def execAll (k : Engine Chronicle) : List Code.Stmt → Chronicled Unit
  | [] => return
  | s :: ss => do
    let _ ← k.execBlock [s]
    collectIfDue
    execAll k ss

end Chronicled

/-! ## Requests -/

/-- Does something after a computation, whether or not it fails. -/
def Run.settling {σ α : Type} (after : EStateM Failure σ Unit) (x : EStateM Failure σ α) :
    EStateM Failure σ α := do
  let r ← caught x
  after
  finish id r

/-- Frees all objects that no global reaches, and says how many. -/
def Run.collect : Run Nat := fun ⟨⟨heap, lexicon⟩, globals, tracer⟩ =>
  .ok (heap.collect globals.roots).1 ⟨⟨(heap.collect globals.roots).2, lexicon⟩, globals, tracer⟩

/-- What a request makes the machine do, once its program is resolved or its global is found. -/
inductive Errand where
  | exec (code : List Code.Stmt)
  | eval (code : Code.Expr)
  | call (callee : Value) (positional : List Object) (keywords : List (String × Object))
  | set (x : String) (o : Object)
  | freeze
  | collect

namespace Errand

/-- Does an errand, with a limit on the calls that may be open. -/
def run (l : Library) (limit : Nat) : Errand → Run Answer
  | .exec code => Run.settling Run.collectIfDue do
    Run.execAll (Run.topLevel l limit).engine code
    return .done
  | .eval code => Run.settling Run.collectIfDue do
    let v ← (Run.topLevel l limit).engine.eval code
    return .object (← Run.inspect (v.unfold l))
  | .call callee positional keywords => do
    let args ← Run.onStore (Module.buildArgs positional keywords)
    Run.settling Run.collectIfDue do
      let v ← Run.callWithin l limit limit callee args
      return .object (← Run.inspect (v.unfold l))
  | .set x o => do
    let v ← Run.onStore o.build
    Run.onStore (Store.learn x)
    Run.storeGlobal x v
    return .done
  | .freeze => fun ⟨⟨heap, lexicon⟩, globals, tracer⟩ =>
    .ok .done ⟨⟨heap.freezeFrom globals.roots, lexicon⟩, { globals with frozen := true }, tracer⟩
  | .collect => return .count (← Run.collect)

open Chronicled in
/-- Does an errand and chronicles it. -/
def chronicled (l : Library) (limit : Nat) : Errand → Chronicled Answer
  | .exec code => Run.settling collectIfDue do
    execAll (topLevel l limit) code
    return .done
  | .eval code => Run.settling collectIfDue do
    let v ← (topLevel l limit).eval code
    return .object (← inspect (v.unfold l))
  | .call callee positional keywords => do
    let args ← buildArgs positional keywords
    Run.settling collectIfDue do
      let v ← callWithin l limit limit callee args
      return .object (← inspect (v.unfold l))
  | .set x o => do
    let v ← build o
    learn x
    onMachine (Run.storeGlobal x v)
    return .done
  | .freeze => noting (freeze.run l limit) fun _ => .changed
  | .collect => return .count (← Chronicled.collect)

end Errand

/-- The tracer that a request brings. -/
def Step.tracer : Step → Tracer
  | .exec tracer _ => tracer
  | .call tracer .. => tracer
  | _ => .silent

namespace Module

/-- What a request makes the machine do, and the module that it is done with. -/
def errand? (m : Module) : Step → Option (Errand × Module)
  | .exec _ program =>
    match m.resolve (·.resolveProgram program) with
    | (.error _, _) => none
    | (.ok code, m) => some (.exec code, m)
  | .eval e =>
    match m.resolve (·.resolveExpr e) with
    | (.error _, _) => none
    | (.ok code, m) => some (.eval code, m)
  | .call _ x positional keywords =>
    match m.globals.lookup m.library x with
    | .error _ => none
    | .ok callee => some (.call callee positional keywords, m)
  | .set x o => some (.set x o, m)
  | .freeze => some (.freeze, m)
  | .collect => some (.collect, m)
  | _ => none

/-- The limit of the depth in force. -/
abbrev depthLimit (m : Module) : Nat := m.heap.meter.depthLimit

/-- The machine that a request of a module starts with or has ended with. -/
def machine (m : Module) (tracer : Tracer) : Machine := ⟨m.store, m.globals, tracer⟩

/-- The reply when a run of the machine has ended, and the module after it. -/
def replyTo (m : Module) : EStateM.Result Failure Machine Answer → Reply × Module
  | .ok a machine => (⟨a, machine.tracer⟩, { m with store := machine.store, globals := machine.globals })
  | .error e machine => (⟨.failed e, machine.tracer⟩, { m with store := machine.store, globals := machine.globals })

/-- The reply when a chronicled run has ended, the module after it, and what has happened. -/
def chronicle (m : Module) : EStateM.Result Failure Chronicle Answer → (Reply × Module) × List Change
  | .ok a w => (m.replyTo (.ok a w.machine), w.past)
  | .error e w => (m.replyTo (.error e w.machine), w.past)

/-- Answers a request, and tells what has happened. -/
def stepChronicled (m : Module) (s : Step) : (Reply × Module) × List Change :=
  match m.errand? s with
  | none => (m.step s, [])
  | some (errand, m) => m.chronicle (errand.chronicled m.library m.depthLimit ⟨m.machine s.tracer, []⟩)

/-- Answers requests one after another, and tells what has happened. -/
def runChronicled (m : Module) : List Step → (List Reply × Module) × List Change
  | [] => (([], m), [])
  | s :: ss =>
    let ((r, m), now) := m.stepChronicled s
    let ((rs, m), later) := m.runChronicled ss
    ((r :: rs, m), now ++ later)

end Module

end Scriptlet
