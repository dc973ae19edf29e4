import Scriptlet.Proofs.Machine.Steps
import Scriptlet.Proofs.Stepping.Basic

/-!
# Plans and the evaluator

What a plan comes to if each task in it comes to what the evaluator makes of it. The plan of a task then comes to
the same as the task.
-/

namespace Scriptlet

open Call (Args)
open Code (Arg Body Expr Stmt Target)

/-- The calls that may be open at once. -/
def Machine.depthLimit (m : Machine) : Nat := m.store.heap.meter.depthLimit

variable (l : Library) (limit : Nat)

/-- Code in a frame with `depth` calls open. -/
def activationAt (depth : Nat) (frame : Option Address) : Activation :=
  { library := l, depth, frame, call := Run.callWithin l limit (limit - depth) }

/-- What the evaluator makes of a task with `depth` calls open. -/
def Task.outcome (depth : Nat) {α : Type} : Task α → Run α
  | .eval frame e => (activationAt l limit depth frame).engine.eval e
  | .assign frame target v => (activationAt l limit depth frame).engine.assign target v
  | .exec frame s => (activationAt l limit depth frame).engine.exec s
  | .block frame stmts => (activationAt l limit depth frame).engine.execBlock stmts
  | .body frame b => (activationAt l limit depth frame).engine.execBody b
  | .native id receiver args => Run.native l id receiver args
  | .call v args => Run.callWithin l limit (limit - depth) v args
  | .program stmts => Run.execAll (activationAt l limit depth none).engine stmts

namespace Plan

/-- What a plan comes to with `depth` calls open. -/
def outcome (depth : Nat) {α : Type} : Plan α → Run α
  | .done a => return a
  | .ask r next => do
    let b ← r.perform l depth
    (next b).outcome depth
  | .recur t next => do
    let b ← t.outcome l limit depth
    (next b).outcome depth
  | .enter name frame body next => do
    let v ← Run.entered name (depth + 1) (body.outcome l limit (depth + 1)) (Run.release frame)
    (next v).outcome depth

variable {l limit} {depth : Nat}

@[simp]
theorem outcome_pure {α : Type} (a : α) : (pure a : Plan α).outcome l limit depth = pure a := rfl

@[simp]
theorem outcome_bind {α β : Type} (p : Plan α) (f : α → Plan β) :
    (p >>= f).outcome l limit depth =
      p.outcome l limit depth >>= fun a => (f a).outcome l limit depth := by
  show (p.bind f).outcome l limit depth = _
  induction p with
  | done a => simp only [Plan.bind, outcome, pure_bind]
  | ask r next ih => simp only [Plan.bind, outcome, bind_assoc, ih]
  | recur t next ih => simp only [Plan.bind, outcome, bind_assoc, ih]
  | enter name frame body next ih => simp only [Plan.bind, outcome, bind_assoc, ih]

@[simp]
theorem outcome_request {α : Type} (r : Request α) : (request r).outcome l limit depth = r.perform l depth := by
  simp only [request, outcome, bind_pure]

@[simp]
theorem outcome_run {α : Type} (t : Task α) : (run t).outcome l limit depth = t.outcome l limit depth := by
  simp only [run, outcome, bind_pure]

@[simp]
theorem outcome_ite {α : Type} (c : Prop) [Decidable c] (p q : Plan α) :
    (if c then p else q).outcome l limit depth =
      if c then p.outcome l limit depth else q.outcome l limit depth := by
  split <;> rfl

/-! ## Expressions and targets -/

variable (frame : Option Address)

theorem outcome_evalAll (es : List Expr) :
    (evalAll frame es).outcome l limit depth = (activationAt l limit depth frame).engine.evalAll es := by
  induction es with
  | nil => rfl
  | cons e es ih =>
    simp only [evalAll, Engine.evalAll, outcome_bind, outcome_run, outcome_pure, ih, Task.outcome]

theorem outcome_evalEntries (entries : OrderedMap Key (Value × Value)) (es : List (Expr × Expr)) :
    (evalEntries frame entries es).outcome l limit depth =
      (activationAt l limit depth frame).engine.evalEntries entries es := by
  induction es generalizing entries with
  | nil => rfl
  | cons e es ih =>
    obtain ⟨index, value⟩ := e
    simp only [evalEntries, Engine.evalEntries, outcome_bind, outcome_run, outcome_request, ih,
      Task.outcome]
    rfl

theorem outcome_evalArgs (args : List Arg) :
    (evalArgs frame args).outcome l limit depth =
      (activationAt l limit depth frame).engine.evalArgs args := by
  induction args with
  | nil => rfl
  | cons a more ih =>
    cases a <;>
      simp only [evalArgs, Engine.evalArgs, outcome_bind, outcome_run, outcome_request, outcome_pure, ih,
        Task.outcome] <;> rfl

theorem outcome_eval (e : Expr) :
    (Plan.eval frame e).outcome l limit depth = (activationAt l limit depth frame).engine.eval e := by
  cases e <;>
    simp only [Plan.eval, Engine.eval, outcome_bind, outcome_run, outcome_request, outcome_pure,
      outcome_ite, outcome_evalAll, outcome_evalEntries, outcome_evalArgs, Task.outcome] <;> rfl

theorem outcome_assignAll (targets : List Target) (vs : List Value) :
    (assignAll frame targets vs).outcome l limit depth =
      (activationAt l limit depth frame).engine.assignAll targets vs := by
  induction targets generalizing vs with
  | nil => simp only [assignAll, Engine.assignAll, outcome_pure]
  | cons t ts ih =>
    cases vs with
    | nil => simp only [assignAll, Engine.assignAll, outcome_pure]
    | cons v vs =>
      simp only [assignAll, Engine.assignAll, outcome_bind, outcome_run, ih, Task.outcome]

theorem outcome_assign (target : Target) (v : Value) :
    (Plan.assign frame target v).outcome l limit depth =
      (activationAt l limit depth frame).engine.assign target v := by
  cases target <;>
    simp only [Plan.assign, Engine.assign, outcome_bind, outcome_run, outcome_request, outcome_ite,
      outcome_assignAll, Task.outcome] <;> rfl

theorem outcome_augmentTarget (op : Program.Operator) (e : Expr) (target : Target) :
    (augmentTarget frame op e target).outcome l limit depth =
      (activationAt l limit depth frame).engine.augmentTarget target op e := by
  cases target <;>
    simp only [augmentTarget, Engine.augmentTarget, outcome_bind, outcome_run, outcome_request,
      Task.outcome] <;> rfl

/-! ## Statements -/

theorem outcome_rounds (target : Target) (body : List Stmt) (items : List Value) :
    (rounds frame target body items).outcome l limit depth =
      Engine.rounds (fun item => do
        (activationAt l limit depth frame).engine.assign target item
        (activationAt l limit depth frame).engine.execBlock body) items := by
  induction items with
  | nil => rfl
  | cons v vs ih =>
    simp only [rounds, Engine.rounds, outcome_bind, outcome_run, Task.outcome, bind_assoc]
    congr 1
    funext _
    congr 1
    funext flow
    cases flow <;> simp only [ih, outcome_pure]

theorem outcome_exec (s : Stmt) :
    (Plan.exec frame s).outcome l limit depth = (activationAt l limit depth frame).engine.exec s := by
  cases s with
  | giveBack value =>
    cases value <;>
      simp only [Plan.exec, Engine.exec, outcome_bind, outcome_run, outcome_pure, Task.outcome]
  | _ =>
    simp only [Plan.exec, Engine.exec, outcome_bind, outcome_run, outcome_request, outcome_pure,
      outcome_ite, outcome_evalAll, outcome_augmentTarget, outcome_rounds, Task.outcome] <;> rfl

theorem outcome_execBlock (stmts : List Stmt) :
    (Plan.execBlock frame stmts).outcome l limit depth =
      (activationAt l limit depth frame).engine.execBlock stmts := by
  induction stmts with
  | nil => rfl
  | cons s ss ih =>
    simp only [Plan.execBlock, Engine.execBlock, outcome_bind, outcome_run, outcome_request, Task.outcome]
    congr 1
    funext _
    congr 1
    funext flow
    cases flow <;> simp only [ih, outcome_pure]

theorem outcome_execBody (b : Body) :
    (Plan.execBody frame b).outcome l limit depth =
      (activationAt l limit depth frame).engine.execBody b := by
  cases b with
  | expr e => simp only [Plan.execBody, Engine.execBody, outcome_run, Task.outcome]
  | block stmts =>
    simp only [Plan.execBody, Engine.execBody, outcome_bind, outcome_run, Task.outcome]
    congr 1
    funext flow
    cases flow <;> rfl

theorem outcome_execAll (stmts : List Stmt) :
    (Plan.execAll stmts).outcome l limit depth =
      Run.execAll (activationAt l limit depth none).engine stmts := by
  induction stmts with
  | nil => rfl
  | cons s ss ih =>
    simp only [Plan.execAll, Run.execAll, outcome_bind, outcome_run, outcome_request, ih, Task.outcome]
    rfl

/-! ## Calls -/

variable {m : Machine}

theorem checkDepth_of_lt (h : depth < m.depthLimit) : Request.checkDepth.perform l depth m = .ok () m := by
  have allowed : m.store.heap.meter.checkDepth depth = .ok () := if_neg (Nat.not_le.2 h)
  simp only [Request.perform, Run.checkDepth, allowed]

theorem checkDepth_of_le (h : m.depthLimit ≤ depth) :
    Request.checkDepth.perform l depth m =
      .error (.ofCause (.exhausted (.depth m.depthLimit (depth + 1)))) m := by
  have refused : m.store.heap.meter.checkDepth depth =
      .error (.depth m.store.heap.meter.depthLimit (depth + 1)) := if_pos h
  simp only [Request.perform, Run.checkDepth, refused]
  rfl

/-- A call that is refused: only what the value stands for is looked at. -/
theorem outcome_call_of_le (h : m.depthLimit ≤ depth) (v : Value) (args : Args) :
    (Plan.call v args).outcome l limit depth m =
      (do let _ ← Run.inspect v.callee
          raise (.exhausted (.depth m.depthLimit (depth + 1))) : Run Value) m := by
  rw [Plan.call, outcome_bind, outcome_request, Request.perform]
  cases found : Run.inspect v.callee m with
  | error e m' => rw [bind_of_error found, bind_of_error found]
  | ok callee m' =>
    obtain ⟨-, rfl⟩ := Run.inspect_eq_ok.1 found
    rw [bind_of_ok found, bind_of_ok found]
    have refused := checkDepth_of_le (l := l) h
    cases callee with
    | function c =>
      simp only [outcome_bind, outcome_request]
      rw [bind_of_error refused]
      rfl
    | native id receiver =>
      simp only [outcome_bind, outcome_request]
      rw [bind_of_error refused]
      rfl

/-- A call that is let through. -/
theorem outcome_call_of_lt (h : depth < m.depthLimit) (v : Value) (args : Args) :
    (Plan.call v args).outcome l limit depth m =
      (do match ← Run.inspect v.callee with
          | .function c =>
            Run.callFunction l (depth + 1) (Run.callWithin l limit (limit - (depth + 1))) c args
          | .native id receiver => Run.callNative l (depth + 1) id receiver args : Run Value) m := by
  rw [Plan.call, outcome_bind, outcome_request, Request.perform]
  cases found : Run.inspect v.callee m with
  | error e m' => rw [bind_of_error found, bind_of_error found]
  | ok callee m' =>
    obtain ⟨-, rfl⟩ := Run.inspect_eq_ok.1 found
    rw [bind_of_ok found, bind_of_ok found]
    have allowed := checkDepth_of_lt (l := l) h
    cases callee with
    | function c =>
      simp only [outcome_bind, outcome_request]
      rw [bind_of_ok allowed]
      simp only [outcome, bind_pure, Task.outcome]
      rfl
    | native id receiver =>
      simp only [outcome_bind, outcome_request]
      rw [bind_of_ok allowed]
      simp only [outcome, bind_pure, Task.outcome, Request.perform, Run.native, Run.callNative]
      cases l.native id <;> rfl

theorem outcome_call (hm : m.depthLimit = limit) (h : depth ≤ limit) (v : Value) (args : Args) :
    (Plan.call v args).outcome l limit depth m =
      Run.callWithin l limit (limit - depth) v args m := by
  rcases Nat.lt_or_eq_of_le h with below | reached
  · have budget : limit - depth = (limit - (depth + 1)) + 1 := by omega
    have open_calls : limit - (limit - (depth + 1)) = depth + 1 := by omega
    rewrite [outcome_call_of_lt (by omega), budget, Run.callWithin, open_calls]
    rfl
  · subst reached
    rw [outcome_call_of_le (by omega), Nat.sub_self, Run.callWithin_zero, hm]

end Plan

/-- The plan of a task comes to what the evaluator makes of the task. -/
theorem Task.outcome_plan {α : Type} {m : Machine} {depth : Nat} (hm : m.depthLimit = limit)
    (h : depth ≤ limit) (t : Task α) : t.plan.outcome l limit depth m = t.outcome l limit depth m := by
  cases t with
  | eval frame e => exact congrFun (Plan.outcome_eval frame e) m
  | assign frame target v => exact congrFun (Plan.outcome_assign frame target v) m
  | exec frame s => exact congrFun (Plan.outcome_exec frame s) m
  | block frame stmts => exact congrFun (Plan.outcome_execBlock frame stmts) m
  | body frame b => exact congrFun (Plan.outcome_execBody frame b) m
  | native id receiver args => exact congrFun (Plan.outcome_request (.native id receiver args)) m
  | call v args => exact Plan.outcome_call hm h v args
  | program stmts => exact congrFun (Plan.outcome_execAll stmts) m

end Scriptlet
