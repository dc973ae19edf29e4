import Scriptlet.Proofs.Chronicle.Basic
import Scriptlet.Proofs.Correspondence
import Scriptlet.Proofs.Stepping.Basic

/-!
# Chronicled and plain runs

A chronicled run and the run itself are put together in the same way from corresponding operations. So whatever is kept
when computations are put together and relates the primitive operations with their chronicled versions relates whole
runs with chronicled runs.
-/

namespace Scriptlet

open Call (Args)
open Code (Signature)
open Fault (Cause)
open Heap (Cell)
open Program (Operator)

/-- A relation of chronicled and plain computations that is kept when computations are put together and relates the
primitive operations. -/
structure Chronicled.Relates (L : (α : Type) → Chronicled α → Run α → Prop) : Prop extends Congruence L where
  inspect : ∀ {α : Type} {f : Heap → Attempt α}, Looks f → L α (inspect f) (Run.inspect f)
  allocate : ∀ c : Cell, L Address (allocate c) (Run.onStore (Store.onHeap (Heap.allocate c)))
  update : ∀ a f, L Unit (update a f) (Run.onStore (Store.onHeap (modify fun h => h.update a f)))
  learn : ∀ w, L Unit (learn w) (Run.onStore (Store.learn w))
  observe : ∀ {e : Trace.Event}, e.Aside → L Unit (observe e) (Run.observe e)
  begin : ∀ kind depth, L Unit (begin kind depth)
    (do Run.onStore (Store.onHeap Run.tick); Run.observe (.statement kind depth))
  loadGlobal : ∀ l x, L Value (onMachine (Run.loadGlobal l x)) (Run.loadGlobal l x)
  storeGlobal : ∀ x v, L Unit (onMachine (Run.storeGlobal x v)) (Run.storeGlobal x v)

namespace Chronicled.Relates

variable {L : (α : Type) → Chronicled α → Run α → Prop} (R : Relates L)

include R

/-- The computations on the store are put together like those of the machine. -/
theorem stores : Congruence fun α (x : Chronicled α) (y : StoreM α) => L α x (Run.onStore y) where
  pure := R.pure
  raise := R.raise
  bind := by
    intro α β x y f g hx hf
    rw [Run.onStore_bind]
    exact R.bind hx hf

/-- So are those on the heap. -/
theorem heaps :
    Congruence fun α (x : Chronicled α) (y : HeapM α) => L α x (Run.onStore (Store.onHeap y)) where
  pure := R.pure
  raise := R.raise
  bind := by
    intro α β x y f g hx hf
    rw [Store.onHeap_bind]
    exact R.stores.bind hx hf

theorem make (c : Cell) : L Value (make c) (Run.allocate c) :=
  R.stores.bind (R.allocate c) fun a => R.pure (Value.ref a)

theorem combine (op : Operator) (v w : Value) :
    L Value (combine op v w) (Run.onStore (Store.onHeap (Value.combine op v w))) :=
  R.heaps.bind (R.inspect (fun _ _ => by rfl)) fun c =>
    R.heaps.bind (R.allocate c) fun a => R.pure (Value.ref a)

theorem binary (op : Operator) (v w : Value) :
    L Value (binary op v w) (Run.onStore (Store.onHeap (v.binary op w))) := by
  cases v with
  | int m =>
    cases w with
    | int n => exact R.inspect (.const _)
    | _ => exact R.combine op _ _
  | _ => exact R.combine op _ w

theorem augment (op : Operator) (v w : Value) :
    L Value (augment op v w) (Run.onStore (Store.onHeap (v.augment op w))) := by
  refine R.heaps.bind (R.inspect (fun _ _ => by rfl)) fun target => ?_
  cases target with
  | none => exact R.binary op v w
  | some target => exact R.heaps.bind (R.update target.1 _) fun _ => R.pure v

theorem setItem (container index value : Value) :
    L Unit (setItem container index value) (Run.onStore (Store.onHeap (container.setItem index value))) := by
  cases container with
  | ref a => exact R.heaps.bind (R.inspect (Value.looks_itemEdit a index value)) fun e => R.update a e.apply
  | _ => exact R.heaps.bind (R.inspect (fun _ _ => by rfl)) fun type => R.raise _

theorem editList (callee : String) (v : Value) (e : Heap.Edit) :
    L Unit (editList callee v e) (Run.onStore (Store.onHeap (v.editList callee e))) :=
  R.heaps.bind (R.inspect (fun _ _ => by rfl)) fun a => R.update a e.apply

theorem keywordsOf (es : List (Value × Value)) :
    L (List (String × Value)) (keywordsOf es) (Run.onStore (Store.keywordsOf es)) := by
  induction es with
  | nil => exact R.pure []
  | cons e es ih =>
    refine R.stores.bind (R.inspect (fun _ _ => by rfl)) fun x => ?_
    exact R.stores.bind (R.learn x) fun _ => R.stores.bind ih fun kvs => R.pure _

theorem spreadKeywords (v : Value) :
    L (List (String × Value)) (spreadKeywords v) (Run.onStore (Store.spreadKeywords v)) :=
  R.stores.bind (R.inspect (fun _ _ => by rfl)) fun es => R.keywordsOf es

theorem readAttr (l : Library) (v : Value) (attr : String) :
    L Value (readAttr l v attr) (Run.onStore (Store.readAttr l v attr)) := by
  refine R.stores.bind (R.inspect (fun _ _ => by rfl)) fun found => ?_
  cases found with
  | some w => exact R.pure w
  | none =>
    refine R.stores.bind (R.inspect (fun _ _ => by rfl)) fun type => ?_
    cases l.method? type attr with
    | some native => exact R.make _
    | none => exact R.raise _

/-- Binding notes the tuple and the dictionary that it makes. -/
theorem bindArgs (s : Signature) (callee : String) (defaults : List Value) (args : Args) :
    L (List (String × Value)) (bindArgs s callee defaults args)
      (Run.onStore (Store.onHeap (s.bind callee defaults args))) := by
  have rest : L (List (String × Value)) (collectRest s args)
      (Run.onStore (Store.onHeap (s.collectRest args))) := by
    unfold collectRest Signature.collectRest
    cases s.rest with
    | none => exact R.pure []
    | some x => exact R.heaps.bind (R.allocate _) fun a => R.pure _
  have keywords (collected : List (String × Value)) : L (List (String × Value)) (collectKeywords s collected)
      (Run.onStore (Store.onHeap (s.collectKeywords collected))) := by
    unfold collectKeywords Signature.collectKeywords
    cases s.keywords with
    | none => exact R.pure []
    | some x => exact R.heaps.bind (R.allocate _) fun a => R.pure _
  unfold Chronicled.bindArgs Signature.bind
  split
  · exact R.inspect (.const _)
  · refine R.heaps.bind (R.inspect (.const _)) fun settled => ?_
    exact R.heaps.bind rest fun _ => R.heaps.bind (keywords settled.2) fun _ => R.pure _

theorem buildWithin (n : Nat) (o : Object) : L Value (buildWithin n o) (Run.onStore (o.buildWithin n)) := by
  induction n generalizing o with
  | zero => exact R.raise _
  | succ n ih =>
    cases o with
    | string s => exact R.make _
    | list items => exact R.stores.bind (R.stores.mapM ih items) fun vs => R.make _
    | tuple items => exact R.stores.bind (R.stores.mapM ih items) fun vs => R.make _
    | dict pairs =>
      refine R.stores.bind (R.stores.foldlM (fun entries p => ?_) pairs _) fun entries => R.make _
      refine R.stores.bind (ih p.1) fun k => R.stores.bind (ih p.2) fun v => ?_
      exact R.stores.bind (R.inspect k.looks_key) fun key => R.pure _
    | struct fields =>
      refine R.stores.bind (R.stores.foldlM (fun fields p => ?_) fields _) fun fields => R.make _
      exact R.stores.bind (ih p.2) fun v => R.stores.bind (R.learn p.1) fun _ => R.pure _
    | described text => exact R.raise _
    | cycle text => exact R.raise _
    | _ => exact R.pure _

theorem build (o : Object) : L Value (build o) (Run.onStore o.build) := R.buildWithin _ o

theorem buildArgs (positional : List Object) (keywords : List (String × Object)) :
    L Args (buildArgs positional keywords) (Run.onStore (Module.buildArgs positional keywords)) := by
  refine R.stores.bind (R.stores.mapM R.build positional) fun vs => ?_
  refine R.stores.bind (R.stores.mapM (fun kv => ?_) keywords) fun kvs => R.pure _
  exact R.stores.bind (R.build kv.2) fun v => R.stores.bind (R.learn kv.1) fun _ => R.pure _

/-- Host functions are related if showing exceptions keeps computations related. -/
theorem runHost
    (attempts : ∀ {α : Type} {x : Chronicled α} {y : StoreM α}, L α x (Run.onStore y) →
      L (Except Cause α) (HostCode.attempt x) (Run.onStore (HostCode.attempt y)))
    (throws : ∀ e : Exception, L Value (throw (.raised e)) (throw (.raised e)))
    (l : Library) (c : NativeCall) (code : HostCode) (obtained : List Value) :
    L Value (runHost l c code obtained) (Run.onStore (code.run l c obtained)) := by
  induction code generalizing obtained with
  | giveBack v => exact R.pure _
  | fail e => exact throws e
  | requireArity count next ih =>
    exact R.stores.bind (attempts (R.inspect (.const _))) fun r => ih r obtained
  | typeOf v next ih => exact R.stores.bind (R.inspect (fun _ _ => by rfl)) fun t => ih t obtained
  | textOf v next ih => exact R.stores.bind (R.inspect (fun _ _ => by rfl)) fun t => ih t obtained
  | intOf v next ih => exact ih _ obtained
  | objectOf v next ih => exact R.stores.bind (R.inspect (Value.looks_unfold l _)) fun o => ih o obtained
  | lengthOf v next ih =>
    exact R.stores.bind (attempts (R.inspect (fun _ _ => by rfl))) fun r => ih r obtained
  | newValue o next ih => exact R.stores.bind (attempts (R.build o)) fun r => ih _ _
  | newText s next ih => exact R.stores.bind (attempts (R.make _)) fun r => ih _ _
  | newStruct next ih => exact R.stores.bind (attempts (R.make _)) fun r => ih _ _
  | push list item next ih => exact R.stores.bind (attempts (R.editList c.name _ _)) fun r => ih r obtained
  | clear list next ih => exact R.stores.bind (attempts (R.editList c.name _ _)) fun r => ih r obtained

/-! ## Code -/

section code

variable (act : Activation)

theorem loadFrom (frame : Option Address) (x : String) :
    L Value (Activation.chronicledLoadFrom frame x) (Activation.loadFrom frame x) := by
  refine R.bind (R.inspect (fun _ _ => by rfl)) fun found => ?_
  cases found with
  | some v => exact R.pure v
  | none => exact R.raise _

theorem load (x : Code.Name) : L Value (act.chronicledLoad x) (act.load x) := by
  unfold Activation.chronicledLoad Activation.load
  cases x.scope with
  | global => exact R.loadGlobal act.library x.text
  | own => exact R.loadFrom act.frame x.text
  | outer levels =>
    refine R.bind (R.observe (by exact trivial)) fun _ => ?_
    exact R.bind (R.inspect (Heap.looks_enclosing levels act.frame)) fun frame => R.loadFrom frame x.text

theorem assign (frame : Option Address) (x : String) (v : Value) :
    L Bool (Activation.chronicledAssign frame x v) (Run.onStore (Store.onHeap (Heap.assignVariable frame x v))) := by
  cases frame with
  | none => exact R.pure false
  | some a =>
    refine R.heaps.bind (R.inspect (fun _ _ => by rfl)) fun c => ?_
    cases c with
    | frame f => exact R.heaps.bind (R.update a _) fun _ => R.pure true
    | _ => exact R.pure false

theorem store (x : Code.Name) (v : Value) : L Unit (act.chronicledStore x v) (act.store x v) := by
  refine R.bind (R.inspect (act.looks_frameOf x)) fun frame => ?_
  refine R.bind (R.assign frame x.text v) fun assigned => ?_
  cases assigned with
  | true => exact R.pure ()
  | false => exact R.storeGlobal x.text v

theorem capture (frame : Option Address) :
    L Unit (Activation.chronicledCapture frame) (Run.onStore (Store.onHeap (Heap.captureFrame frame))) := by
  cases frame with
  | none => exact R.pure ()
  | some a =>
    refine R.heaps.bind (R.inspect (fun _ _ => by rfl)) fun c => ?_
    cases c with
    | frame f => exact R.update a _
    | _ => exact R.pure ()

theorem function (id : FunctionId) (defaults : List Value) :
    L Value (act.chronicledFunction id defaults) (act.makeFunction id defaults) := by
  refine R.bind (R.inspect (.const _)) fun f => ?_
  refine R.bind (R.observe (by exact trivial)) fun _ => ?_
  split
  · exact R.bind (R.capture act.frame) fun _ => R.make _
  · exact R.make _

/-- Code of an activation is related if the calls that it makes are. -/
theorem chronicled {call : Value → Args → Chronicled Value} {plain : Value → Args → Run Value}
    (calls : ∀ v args, L Value (call v args) (plain v args)) :
    (act.chronicled call).Corresponds L { act with call := plain }.engine where
  toCongruence := R.toCongruence
  load := R.load _
  store := R.store _
  list _ := R.make _
  tuple _ := R.make _
  display related := R.display (fun v => R.inspect v.looks_key) (fun _ => R.make _) related .empty
  item v i := R.inspect (v.looks_item i)
  setItem := R.setItem
  attr v x := R.readAttr act.library v x
  binary := R.binary
  augment := R.augment
  compare op v w := R.inspect (v.looks_holds op w)
  negate v := R.inspect (fun _ _ => by rfl)
  truthy v := R.inspect (fun _ _ => by rfl)
  items v := R.inspect (fun _ _ => by rfl)
  keywords := R.spreadKeywords
  function := R.function _
  call := calls
  begin kind := R.begin kind act.depth

end code

end Chronicled.Relates

/-! ## Calls -/

namespace Chronicled

/-- Releases the frame of a call, if it has one. -/
def release : Option Address → Chronicled Unit
  | none => return
  | some a => releaseFrame a

/-- What is needed of a relation so that it relates a chronicled run with the limit `limit` to the run of the same code
with a limit that is higher by `more`. -/
structure Corresponds (L : (α : Type) → Chronicled α → Run α → Prop) (l : Library) (limit more : Nat) :
    Prop extends Relates L where
  native : ∀ {id : NativeId} {e : NativeEntry}, l.native id = .ok e → ∀ c : NativeCall,
    L Value (runHost l c (e.native.code c.shape) []) (Run.onStore (e.native.run l c))
  entered : ∀ (name : String) {depth : Nat} (frame : Option Address) {x : Chronicled Value} {y : Run Value},
    depth ≤ limit → L Value x y →
      L Value (entered name depth x (release frame)) (Run.entered name depth y (Run.release frame))
  refused : ∀ v args, L Value (callWithin l limit 0 v args) (Run.callWithin l (limit + more) more v args)
  collectIfDue : L Unit collectIfDue Run.collectIfDue

namespace Corresponds

variable {L : (α : Type) → Chronicled α → Run α → Prop} {l : Library} {limit more : Nat}

theorem callFunction (R : Corresponds L l limit more) {depth : Nat} (h : depth ≤ limit)
    (inner : Value → Args → Run Value) {call : Value → Args → Chronicled Value} {plain : Value → Args → Run Value}
    (calls : ∀ v args, L Value (call v args) (plain v args)) (c : Heap.Closure) (args : Args) :
    L Value (callFunction l depth inner call c args) (Run.callFunction l depth plain c args) := by
  refine R.bind (R.inspect (.const _)) fun f => ?_
  refine R.bind (R.bindArgs f.signature f.name c.defaults args) fun bindings => ?_
  refine R.bind (R.allocate _) fun a => ?_
  refine R.entered f.name (some a) h ?_
  exact (R.chronicled { library := l, depth, frame := some a, call := inner } calls).execBody f.body

theorem callNative (R : Corresponds L l limit more) {depth : Nat} (h : depth ≤ limit) (id : NativeId)
    (receiver : Option Value) (args : Args) :
    L Value (callNative l depth id receiver args) (Run.callNative l depth id receiver args) := by
  unfold Chronicled.callNative Run.callNative
  cases found : l.native id with
  | ok e =>
    have known : Run.inspect (fun _ => .ok e) = pure e := rfl
    have known' : Chronicled.inspect (fun _ => .ok e) = pure e := rfl
    rw [known, known', pure_bind, pure_bind]
    exact R.entered e.name none h (R.native found _)
  | error f => exact R.inspect (.const (.error f))

/-- By induction on the calls that are left before the tighter limit. -/
theorem callWithin (R : Corresponds L l limit more) (budget : Nat) (h : budget ≤ limit) (v : Value) (args : Args) :
    L Value (callWithin l limit budget v args) (Run.callWithin l (limit + more) (budget + more) v args) := by
  induction budget generalizing v args with
  | zero =>
    rw [Nat.zero_add]
    exact R.refused v args
  | succ budget ih =>
    have depth : limit + more - (budget + more) = limit - budget := Nat.add_sub_add_right ..
    rw [Nat.add_right_comm, Chronicled.callWithin, Run.callWithin, depth]
    refine R.bind (R.inspect (fun _ _ => by rfl)) fun callee => ?_
    cases callee with
    | function c => exact R.callFunction (Nat.sub_le ..) _ (fun v args => ih (Nat.le_of_succ_le h) v args) c args
    | native id receiver => exact R.callNative (Nat.sub_le ..) id receiver args

theorem topLevel (R : Corresponds L l limit more) :
    (topLevel l limit).Corresponds L (Run.topLevel l (limit + more)).engine :=
  R.chronicled (Run.topLevel l limit) fun v args => R.callWithin limit (Nat.le_refl _) v args

theorem execAll (R : Corresponds L l limit more) {k : Engine Chronicle} {k' : Engine Machine}
    (E : k.Corresponds L k') (stmts : List Code.Stmt) : L Unit (execAll k stmts) (Run.execAll k' stmts) := by
  induction stmts with
  | nil => exact R.pure ()
  | cons s ss ih => exact R.bind (E.execBlock [s]) fun _ => R.bind R.collectIfDue fun _ => ih

end Corresponds

end Chronicled

end Scriptlet
