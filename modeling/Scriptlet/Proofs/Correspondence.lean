import Mathlib.Data.List.Forall2
import Scriptlet.Proofs.Composition
import Scriptlet.Proofs.Dict.Display

/-!
# The same code on two machines

Two machines may differ in what they count, allow or know and still answer each request of evaluation in the same
way. If the two answers to each request are related by a relation that is kept when computations are put together,
then so are the two runs of any code. The values on both sides are the same here; runs on heaps in which objects
lie elsewhere are compared by matching engines instead.

Relating a computation to itself only says what one machine does, so this is also how a property of the primitive
operations becomes a property of whole runs.
-/

namespace Scriptlet

open Call (Args)
open Code (Arg Body Expr Stmt Target)

/-! ## Engines -/

/-- The computations of two lists of pairs are related. -/
def PairsRelated {σ τ : Type} (L : (α : Type) → EStateM Failure σ α → EStateM Failure τ α → Prop) :
    List (EStateM Failure σ Value × EStateM Failure σ Value) →
      List (EStateM Failure τ Value × EStateM Failure τ Value) → Prop :=
  List.Forall₂ fun x y => L Value x.1 y.1 ∧ L Value x.2 y.2

/-- Displays are related if the keys of all values and the making of all dictionaries are. -/
theorem Congruence.display {σ τ : Type} {L : (α : Type) → EStateM Failure σ α → EStateM Failure τ α → Prop}
    (C : Congruence L) {key : Value → EStateM Failure σ Key} {key' : Value → EStateM Failure τ Key}
    {make : OrderedMap Key (Value × Value) → EStateM Failure σ Value}
    {make' : OrderedMap Key (Value × Value) → EStateM Failure τ Value}
    (keys : ∀ v, L Key (key v) (key' v)) (makes : ∀ es, L Value (make es) (make' es))
    {xs : List (EStateM Failure σ Value × EStateM Failure σ Value)}
    {ys : List (EStateM Failure τ Value × EStateM Failure τ Value)} (related : PairsRelated L xs ys)
    (entries : OrderedMap Key (Value × Value)) :
    L Value (displayDict key make entries xs) (displayDict key' make' entries ys) := by
  induction related generalizing entries with
  | nil => exact makes entries
  | cons head _ ih =>
    exact C.bind head.1 fun i => C.bind head.2 fun v => C.bind (keys i) fun k => ih (entries.insert k (i, v))

/-- Two engines answer each request by related computations. -/
structure Engine.Corresponds {σ τ : Type}
    (L : (α : Type) → EStateM Failure σ α → EStateM Failure τ α → Prop) (k : Engine σ) (k' : Engine τ) :
    Prop extends Congruence L where
  load : ∀ x, L Value (k.load x) (k'.load x)
  store : ∀ x v, L Unit (k.store x v) (k'.store x v)
  list : ∀ vs, L Value (k.list vs) (k'.list vs)
  tuple : ∀ vs, L Value (k.tuple vs) (k'.tuple vs)
  /-- Keys are only ever asked for, and dictionaries only ever made, in the course of a display. -/
  display : ∀ {xs ys}, PairsRelated L xs ys →
    L Value (displayDict k.key k.dict .empty xs) (displayDict k'.key k'.dict .empty ys)
  item : ∀ v i, L Value (k.item v i) (k'.item v i)
  setItem : ∀ v i w, L Unit (k.setItem v i w) (k'.setItem v i w)
  attr : ∀ v x, L Value (k.attr v x) (k'.attr v x)
  binary : ∀ op v w, L Value (k.binary op v w) (k'.binary op v w)
  augment : ∀ op v w, L Value (k.augment op v w) (k'.augment op v w)
  compare : ∀ op v w, L Bool (k.compare op v w) (k'.compare op v w)
  negate : ∀ v, L Value (k.negate v) (k'.negate v)
  truthy : ∀ v, L Bool (k.truthy v) (k'.truthy v)
  items : ∀ v, L (List Value) (k.items v) (k'.items v)
  keywords : ∀ v, L (List (String × Value)) (k.keywords v) (k'.keywords v)
  function : ∀ id defaults, L Value (k.function id defaults) (k'.function id defaults)
  call : ∀ v args, L Value (k.call v args) (k'.call v args)
  begin : ∀ kind, L Unit (k.begin kind) (k'.begin kind)

namespace Engine.Corresponds

variable {σ τ : Type} {L : (α : Type) → EStateM Failure σ α → EStateM Failure τ α → Prop}
  {k : Engine σ} {k' : Engine τ}

/-- Goes on according to the truth of a value. -/
theorem test (R : Corresponds L k k') (v : Value) {α : Type} {x y : EStateM Failure σ α}
    {x' y' : EStateM Failure τ α} (hx : L α x x') (hy : L α y y') :
    L α (do if ← k.truthy v then x else y) (do if ← k'.truthy v then x' else y') :=
  R.bind (R.truthy v) fun _ => Congruence.ite hx hy

mutual

theorem eval (R : Corresponds L k k') : (e : Expr) → L Value (k.eval e) (k'.eval e)
  | .literal l => R.pure l.value
  | .name x => R.load x
  | .list items => R.bind (R.evalAll items) fun vs => R.list vs
  | .tuple items => R.bind (R.evalAll items) fun vs => R.tuple vs
  | .dict entries => by
    rw [Engine.eval_dict, Engine.eval_dict]
    exact R.display (R.evalEntries entries)
  | .index object index =>
    R.bind (R.eval object) fun v => R.bind (R.eval index) fun i => R.item v i
  | .attr object attr => R.bind (R.eval object) fun v => R.attr v attr
  | .call callee args =>
    R.bind (R.eval callee) fun v => R.bind (R.evalArgs args) fun args => R.call v args
  | .binary left op right =>
    R.bind (R.eval left) fun v => R.bind (R.eval right) fun w => R.binary op v w
  | .compare left op right =>
    R.bind (R.eval left) fun v => R.bind (R.eval right) fun w =>
      R.bind (R.compare op v w) fun b => R.pure (Value.bool b)
  | .not operand => R.bind (R.eval operand) fun v => R.bind (R.truthy v) fun b => R.pure (Value.bool !b)
  | .neg operand => R.bind (R.eval operand) fun v => R.negate v
  | .and left right => R.bind (R.eval left) fun v => R.test v (R.eval right) (R.pure v)
  | .or left right => R.bind (R.eval left) fun v => R.test v (R.pure v) (R.eval right)
  | .cond test body orelse =>
    R.bind (R.eval test) fun v => R.test v (R.eval body) (R.eval orelse)
  | .function id defaults => R.bind (R.evalAll defaults) fun vs => R.function id vs

theorem evalAll (R : Corresponds L k k') :
    (es : List Expr) → L (List Value) (k.evalAll es) (k'.evalAll es)
  | [] => R.pure []
  | e :: es => R.bind (R.eval e) fun v => R.bind (R.evalAll es) fun vs => R.pure (v :: vs)

theorem evalEntries (R : Corresponds L k k') : (es : List (Expr × Expr)) →
    PairsRelated L (es.map fun e => (k.eval e.1, k.eval e.2)) (es.map fun e => (k'.eval e.1, k'.eval e.2))
  | [] => .nil
  | (index, value) :: es => .cons ⟨R.eval index, R.eval value⟩ (R.evalEntries es)

theorem evalArgs (R : Corresponds L k k') :
    (args : List Arg) → L Args (k.evalArgs args) (k'.evalArgs args)
  | [] => R.pure ({} : Args)
  | .positional e :: more =>
    R.bind (R.eval e) fun v => R.bind (R.evalArgs more) fun args => R.pure (args.consPositional [v])
  | .keyword x e :: more =>
    R.bind (R.eval e) fun v => R.bind (R.evalArgs more) fun args => R.pure (args.consKeywords [(x, v)])
  | .spread e :: more =>
    R.bind (R.eval e) fun v => R.bind (R.items v) fun items => R.bind (R.evalArgs more) fun args =>
      R.pure (args.consPositional items)
  | .spreadKeywords e :: more =>
    R.bind (R.eval e) fun v => R.bind (R.keywords v) fun keywords =>
      R.bind (R.evalArgs more) fun args => R.pure (args.consKeywords keywords)

end

mutual

theorem assign (R : Corresponds L k k') :
    (target : Target) → (v : Value) → L Unit (k.assign target v) (k'.assign target v)
  | .name x, v => R.store x v
  | .index object index, v =>
    R.bind (R.eval object) fun o => R.bind (R.eval index) fun i => R.setItem o i v
  | .tuple targets, v =>
    R.bind (R.items v) fun items => Congruence.ite (R.assignAll targets items) (R.raise _)

theorem assignAll (R : Corresponds L k k') : (targets : List Target) → (vs : List Value) →
    L Unit (k.assignAll targets vs) (k'.assignAll targets vs)
  | [], _ => R.pure ()
  | _ :: _, [] => R.pure ()
  | t :: ts, v :: vs => R.bind (R.assign t v) fun _ => R.assignAll ts vs

end

theorem augmentTarget (R : Corresponds L k k') (target : Target) (op : Program.Operator) (e : Expr) :
    L Unit (k.augmentTarget target op e) (k'.augmentTarget target op e) := by
  cases target with
  | name x =>
    refine R.bind (R.load x) fun current => R.bind (R.eval e) fun v => ?_
    exact R.bind (R.augment op current v) fun updated => R.store x updated
  | index object index =>
    refine R.bind (R.eval object) fun o => R.bind (R.eval index) fun i => ?_
    refine R.bind (R.item o i) fun current => R.bind (R.eval e) fun v => ?_
    exact R.bind (R.augment op current v) fun updated => R.setItem o i updated
  | tuple targets => exact R.raise _

theorem rounds (R : Corresponds L k k') {round : Value → EStateM Failure σ Flow}
    {round' : Value → EStateM Failure τ Flow} (h : ∀ v, L Flow (round v) (round' v))
    (items : List Value) : L Flow (Engine.rounds round items) (Engine.rounds round' items) := by
  induction items with
  | nil => exact R.pure _
  | cons v vs ih =>
    refine R.bind (h v) fun flow => ?_
    cases flow with
    | leaveLoop => exact R.pure _
    | result w => exact R.pure _
    | next => exact ih
    | nextRound => exact ih

mutual

theorem exec (R : Corresponds L k k') : (s : Stmt) → L Flow (k.exec s) (k'.exec s)
  | .expr e => R.bind (R.eval e) fun _ => R.pure _
  | .assign target e =>
    R.bind (R.eval e) fun v => R.bind (R.assign target v) fun _ => R.pure _
  | .augment target op e => R.bind (R.augmentTarget target op e) fun _ => R.pure _
  | .branch test body orelse =>
    R.bind (R.eval test) fun v => R.test v (R.execBlock body) (R.execBlock orelse)
  | .loop target iter body =>
    R.bind (R.eval iter) fun v => R.bind (R.items v) fun items =>
      R.rounds (fun item => R.bind (R.assign target item) fun _ => R.execBlock body) items
  | .leaveLoop => R.pure _
  | .nextRound => R.pure _
  | .pass => R.pure _
  | .giveBack none => R.pure _
  | .giveBack (some e) => R.bind (R.eval e) fun _ => R.pure _
  | .define x id defaults =>
    R.bind (R.evalAll defaults) fun vs => R.bind (R.function id vs) fun f =>
      R.bind (R.store x f) fun _ => R.pure _

theorem execBlock (R : Corresponds L k k') :
    (stmts : List Stmt) → L Flow (k.execBlock stmts) (k'.execBlock stmts)
  | [] => R.pure _
  | s :: ss => R.bind (R.begin s.kind) fun _ => R.bind (R.exec s) fun flow =>
    match flow with
    | .next => R.execBlock ss
    | .result _ => R.pure _
    | .leaveLoop => R.pure _
    | .nextRound => R.pure _

end

theorem execBody (R : Corresponds L k k') (b : Body) : L Value (k.execBody b) (k'.execBody b) := by
  cases b with
  | expr e => exact R.eval e
  | block stmts =>
    refine R.bind (R.execBlock stmts) fun flow => ?_
    cases flow <;> exact R.pure _

end Engine.Corresponds

end Scriptlet
