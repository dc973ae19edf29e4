import Scriptlet.Proofs.Stepping.Requests

/-!
# Recursive calls get smaller

Which recursive calls a plan can make, and that those of a task are all smaller than the task: either more calls
are open, up to the limit, or as many calls are open and the code is a part of the code that runs.
-/

namespace Scriptlet

open Call (Args)
open Code (Arg Body Expr Stmt Target)

/-- The size of the code of a task. A call runs code that is not part of the code that makes it, so it counts for
nothing here. -/
noncomputable def Task.size {α : Type} : Task α → Nat
  | .eval _ e => sizeOf e
  | .assign _ target _ => sizeOf target
  | .exec _ s => sizeOf s
  | .block _ stmts => sizeOf stmts
  | .body _ b => sizeOf b
  | .native .. => 0
  | .call .. => 0
  | .program stmts => sizeOf stmts + 1

/-- A task that runs with `depth` calls open. -/
structure Job where
  depth : Nat
  {result : Type}
  task : Task result

namespace Job

/-- The calls that may still be opened, and the size of the code. -/
noncomputable def rank (limit : Nat) (j : Job) : Nat × Nat := (limit - j.depth, j.task.size)

/-- The rank of a job is smaller in lexicographic order. -/
def Smaller (limit : Nat) (j k : Job) : Prop :=
  Prod.Lex (· < ·) (· < ·) (j.rank limit) (k.rank limit)

theorem smaller_wellFounded (limit : Nat) : WellFounded (Smaller limit) :=
  InvImage.wf (rank limit) (Prod.lex Nat.lt_wfRel Nat.lt_wfRel).wf

/-- As many calls are open and the code is smaller than `n`. -/
def Below (depth n : Nat) (j : Job) : Prop := j.depth = depth ∧ j.task.size < n

theorem Below.smaller {depth limit : Nat} {α : Type} {t : Task α} {j : Job} (h : j.Below depth t.size) :
    j.Smaller limit ⟨depth, t⟩ := by
  obtain ⟨d, task⟩ := j
  obtain ⟨rfl, hsize⟩ := h
  exact Prod.Lex.right _ hsize

end Job

/-! ## The recursive calls of a plan -/

namespace Plan

variable (l : Library) (limit depth : Nat)

/-- A plan that starts with `depth` calls open can make these recursive calls, in this order, before it makes
others, fails or is over. The machine may be any with the given limit each time it is asked. -/
inductive Makes {α : Type} : Plan α → List Job → Prop where
  | nothing (p : Plan α) : Makes p []
  | ask {β : Type} {r : Request β} {next : β → Plan α} {b : β} {jobs : List Job} (m m' : Machine)
      (hm : m.depthLimit = limit) (answer : r.perform l depth m = .ok b m')
      (more : Makes (next b) jobs) : Makes (.ask r next) jobs
  | recur {β : Type} (t : Task β) (next : β → Plan α) : Makes (.recur t next) [⟨depth, t⟩]
  | afterRecur {β : Type} {t : Task β} {next : β → Plan α} {jobs : List Job} (b : β)
      (more : Makes (next b) jobs) : Makes (.recur t next) (⟨depth, t⟩ :: jobs)
  | enter (name : String) (frame : Option Address) (body : Task Value) (next : Value → Plan α) :
      Makes (.enter name frame body next) [⟨depth + 1, body⟩]
  | afterEnter {name : String} {frame : Option Address} {body : Task Value} {next : Value → Plan α}
      {jobs : List Job} (v : Value) (more : Makes (next v) jobs) :
      Makes (.enter name frame body next) (⟨depth + 1, body⟩ :: jobs)

/-- All recursive calls that a plan can make meet a condition. -/
def EachCall (P : Job → Prop) {α : Type} (p : Plan α) : Prop :=
  ∀ jobs, p.Makes l limit depth jobs → ∀ j ∈ jobs, P j

variable {l limit depth} {α β : Type} {P Q : Job → Prop}

theorem eachCall_done (a : α) : (Plan.done a).EachCall l limit depth P := by
  intro jobs made j hj
  cases made
  cases hj

theorem eachCall_ask {r : Request β} {next : β → Plan α} :
    (Plan.ask r next).EachCall l limit depth P ↔ ∀ m b m', m.depthLimit = limit →
      r.perform l depth m = .ok b m' → (next b).EachCall l limit depth P := by
  constructor
  · intro each m b m' hm answer jobs made
    exact each jobs (.ask m m' hm answer made)
  · intro each jobs made j hj
    cases made with
    | nothing => cases hj
    | ask m m' hm answer more => exact each m _ m' hm answer jobs more j hj

theorem eachCall_recur {t : Task β} {next : β → Plan α} :
    (Plan.recur t next).EachCall l limit depth P ↔
      P ⟨depth, t⟩ ∧ ∀ b, (next b).EachCall l limit depth P := by
  constructor
  · intro each
    refine ⟨each [⟨depth, t⟩] (.recur t next) _ (by simp), fun b jobs made j hj => ?_⟩
    exact each (⟨depth, t⟩ :: jobs) (.afterRecur b made) j (List.mem_cons_of_mem _ hj)
  · rintro ⟨first, rest⟩ jobs made j hj
    cases made with
    | nothing => cases hj
    | recur =>
      rw [List.mem_singleton.1 hj]
      exact first
    | afterRecur b more =>
      rcases List.mem_cons.1 hj with rfl | hj
      · exact first
      · exact rest b _ more j hj

theorem eachCall_enter {name : String} {frame : Option Address} {body : Task Value} {next : Value → Plan α} :
    (Plan.enter name frame body next).EachCall l limit depth P ↔
      P ⟨depth + 1, body⟩ ∧ ∀ v, (next v).EachCall l limit depth P := by
  constructor
  · intro each
    refine ⟨each [⟨depth + 1, body⟩] (.enter ..) _ (by simp), fun v jobs made j hj => ?_⟩
    exact each (⟨depth + 1, body⟩ :: jobs) (.afterEnter v made) j (List.mem_cons_of_mem _ hj)
  · rintro ⟨first, rest⟩ jobs made j hj
    cases made with
    | nothing => cases hj
    | enter =>
      rw [List.mem_singleton.1 hj]
      exact first
    | afterEnter v more =>
      rcases List.mem_cons.1 hj with rfl | hj
      · exact first
      · exact rest v _ more j hj

namespace EachCall

theorem imp {p : Plan α} (h : p.EachCall l limit depth P) (hPQ : ∀ j, P j → Q j) : p.EachCall l limit depth Q :=
  fun jobs made j hj => hPQ j (h jobs made j hj)

theorem pure (a : α) : (Pure.pure a : Plan α).EachCall l limit depth P := eachCall_done a

theorem bind {p : Plan α} {f : α → Plan β} (hp : p.EachCall l limit depth P)
    (hf : ∀ a, (f a).EachCall l limit depth P) : (p >>= f).EachCall l limit depth P := by
  show (p.bind f).EachCall l limit depth P
  induction p with
  | done a => exact hf a
  | ask r next ih =>
    exact eachCall_ask.2 fun m b m' hm answer => ih b (eachCall_ask.1 hp m b m' hm answer)
  | recur t next ih =>
    obtain ⟨first, rest⟩ := eachCall_recur.1 hp
    exact eachCall_recur.2 ⟨first, fun b => ih b (rest b)⟩
  | enter name frame body next ih =>
    obtain ⟨first, rest⟩ := eachCall_enter.1 hp
    exact eachCall_enter.2 ⟨first, fun v => ih v (rest v)⟩

theorem request (r : Request α) : (Plan.request r).EachCall l limit depth P :=
  eachCall_ask.2 fun _ b _ _ _ => eachCall_done b

/-- What follows a request may rely on its answer. -/
theorem request_bind {r : Request α} {f : α → Plan β}
    (hf : ∀ m a m', m.depthLimit = limit → r.perform l depth m = .ok a m' →
      (f a).EachCall l limit depth P) : (Plan.request r >>= f).EachCall l limit depth P :=
  eachCall_ask.2 hf

theorem run {t : Task α} (h : P ⟨depth, t⟩) : (Plan.run t).EachCall l limit depth P :=
  eachCall_recur.2 ⟨h, eachCall_done⟩

theorem ite {c : Prop} [Decidable c] {p q : Plan α} (hp : p.EachCall l limit depth P)
    (hq : q.EachCall l limit depth P) : (if c then p else q).EachCall l limit depth P := by
  by_cases h : c
  · rw [if_pos h]
    exact hp
  · rw [if_neg h]
    exact hq

end EachCall

/-! ## Code -/

section code

open Job (Below)

variable (frame : Option Address) {n : Nat}

theorem below_run {t : Task α} (h : t.size < n) : (run t).EachCall l limit depth (Below depth n) :=
  .run ⟨rfl, h⟩

theorem below_runEval (e : Expr) (h : sizeOf e < n) : (run (.eval frame e)).EachCall l limit depth (Below depth n) :=
  below_run h

theorem below_runBlock (stmts : List Stmt) (h : sizeOf stmts < n) :
    (run (.block frame stmts)).EachCall l limit depth (Below depth n) :=
  below_run h

theorem below_evalAll (es : List Expr) (h : sizeOf es ≤ n) :
    (evalAll frame es).EachCall l limit depth (Below depth n) := by
  induction es with
  | nil => exact .pure []
  | cons e es ih =>
    rw [List.cons.sizeOf_spec] at h
    refine (below_runEval frame e (by omega)).bind fun v => ?_
    exact (ih (by omega)).bind fun vs => .pure _

theorem below_evalEntries (entries : OrderedMap Key (Value × Value)) (es : List (Expr × Expr))
    (h : sizeOf es ≤ n) : (evalEntries frame entries es).EachCall l limit depth (Below depth n) := by
  induction es generalizing entries with
  | nil => exact .pure entries
  | cons e es ih =>
    obtain ⟨index, value⟩ := e
    rw [List.cons.sizeOf_spec, Prod.mk.sizeOf_spec] at h
    refine (below_runEval frame index (by omega)).bind fun i => ?_
    refine (below_runEval frame value (by omega)).bind fun v => ?_
    exact (EachCall.request _).bind fun key => ih _ (by omega)

theorem below_evalArgs (args : List Arg) (h : sizeOf args ≤ n) :
    (evalArgs frame args).EachCall l limit depth (Below depth n) := by
  induction args with
  | nil => exact .pure _
  | cons a more ih =>
    rw [List.cons.sizeOf_spec] at h
    have rest := ih (by omega)
    cases a with
    | positional e =>
      rw [Arg.positional.sizeOf_spec] at h
      exact (below_runEval frame e (by omega)).bind fun v => rest.bind fun args => .pure _
    | keyword x e =>
      rw [Arg.keyword.sizeOf_spec] at h
      exact (below_runEval frame e (by omega)).bind fun v => rest.bind fun args => .pure _
    | spread e =>
      rw [Arg.spread.sizeOf_spec] at h
      refine (below_runEval frame e (by omega)).bind fun v => ?_
      exact (EachCall.request _).bind fun items => rest.bind fun args => .pure _
    | spreadKeywords e =>
      rw [Arg.spreadKeywords.sizeOf_spec] at h
      refine (below_runEval frame e (by omega)).bind fun v => ?_
      exact (EachCall.request _).bind fun keywords => rest.bind fun args => .pure _

theorem below_eval (e : Expr) : (Plan.eval frame e).EachCall l limit depth (Below depth (sizeOf e)) := by
  cases e with
  | literal value => exact .pure _
  | name x => exact .request _
  | list items =>
    rw [Expr.list.sizeOf_spec]
    exact (below_evalAll frame items (by omega)).bind fun vs => .request _
  | tuple items =>
    rw [Expr.tuple.sizeOf_spec]
    exact (below_evalAll frame items (by omega)).bind fun vs => .request _
  | dict entries =>
    rw [Expr.dict.sizeOf_spec]
    exact (below_evalEntries frame _ entries (by omega)).bind fun es => .request _
  | index object index =>
    rw [Expr.index.sizeOf_spec]
    refine (below_runEval frame object (by omega)).bind fun v => ?_
    exact (below_runEval frame index (by omega)).bind fun i => .request _
  | attr object attr =>
    rw [Expr.attr.sizeOf_spec]
    exact (below_runEval frame object (by omega)).bind fun v => .request _
  | call callee args =>
    rw [Expr.call.sizeOf_spec]
    refine (below_runEval frame callee (by omega)).bind fun v => ?_
    refine (below_evalArgs frame args (by omega)).bind fun args => ?_
    exact below_run (by rw [Task.size]; omega)
  | binary left op right =>
    rw [Expr.binary.sizeOf_spec]
    refine (below_runEval frame left (by omega)).bind fun v => ?_
    exact (below_runEval frame right (by omega)).bind fun w => .request _
  | compare left op right =>
    rw [Expr.compare.sizeOf_spec]
    refine (below_runEval frame left (by omega)).bind fun v => ?_
    refine (below_runEval frame right (by omega)).bind fun w => ?_
    exact (EachCall.request _).bind fun b => .pure _
  | not operand =>
    rw [Expr.not.sizeOf_spec]
    refine (below_runEval frame operand (by omega)).bind fun v => ?_
    exact (EachCall.request _).bind fun b => .pure _
  | neg operand =>
    rw [Expr.neg.sizeOf_spec]
    exact (below_runEval frame operand (by omega)).bind fun v => .request _
  | and left right =>
    rw [Expr.and.sizeOf_spec]
    refine (below_runEval frame left (by omega)).bind fun v => (EachCall.request _).bind fun b => ?_
    exact .ite (below_runEval frame right (by omega)) (.pure v)
  | or left right =>
    rw [Expr.or.sizeOf_spec]
    refine (below_runEval frame left (by omega)).bind fun v => (EachCall.request _).bind fun b => ?_
    exact .ite (.pure v) (below_runEval frame right (by omega))
  | cond test body orelse =>
    rw [Expr.cond.sizeOf_spec]
    refine (below_runEval frame test (by omega)).bind fun v => (EachCall.request _).bind fun b => ?_
    exact .ite (below_runEval frame body (by omega)) (below_runEval frame orelse (by omega))
  | function id defaults =>
    rw [Expr.function.sizeOf_spec]
    exact (below_evalAll frame defaults (by omega)).bind fun vs => .request _

theorem below_assignAll (targets : List Target) (vs : List Value) (h : sizeOf targets ≤ n) :
    (assignAll frame targets vs).EachCall l limit depth (Below depth n) := by
  induction targets generalizing vs with
  | nil => exact .pure ()
  | cons t ts ih =>
    cases vs with
    | nil => exact .pure ()
    | cons v vs =>
      rw [List.cons.sizeOf_spec] at h
      have first : (Task.assign frame t v).size < n := by rw [Task.size]; omega
      exact (below_run first).bind fun _ => ih vs (by omega)

theorem below_assign (target : Target) (v : Value) :
    (Plan.assign frame target v).EachCall l limit depth (Below depth (sizeOf target)) := by
  cases target with
  | name x => exact .request _
  | index object index =>
    rw [Target.index.sizeOf_spec]
    refine (below_runEval frame object (by omega)).bind fun o => ?_
    exact (below_runEval frame index (by omega)).bind fun i => .request _
  | tuple targets =>
    rw [Target.tuple.sizeOf_spec]
    refine (EachCall.request _).bind fun items => ?_
    exact .ite (below_assignAll frame targets items (by omega)) (.request _)

theorem below_augmentTarget (op : Program.Operator) (e : Expr) (target : Target)
    (he : sizeOf e < n) (ht : sizeOf target ≤ n) :
    (augmentTarget frame op e target).EachCall l limit depth (Below depth n) := by
  cases target with
  | name x =>
    refine (EachCall.request _).bind fun current => (below_runEval frame e he).bind fun v => ?_
    exact (EachCall.request _).bind fun updated => .request _
  | index object index =>
    rw [Target.index.sizeOf_spec] at ht
    refine (below_runEval frame object (by omega)).bind fun o => ?_
    refine (below_runEval frame index (by omega)).bind fun i => ?_
    refine (EachCall.request _).bind fun current => (below_runEval frame e he).bind fun v => ?_
    exact (EachCall.request _).bind fun updated => .request _
  | tuple targets => exact .request _

theorem below_rounds (target : Target) (body : List Stmt) (items : List Value)
    (ht : sizeOf target < n) (hb : sizeOf body < n) :
    (rounds frame target body items).EachCall l limit depth (Below depth n) := by
  induction items with
  | nil => exact .pure _
  | cons v vs ih =>
    refine (below_run ht).bind fun _ => (below_runBlock frame body hb).bind fun flow => ?_
    cases flow with
    | leaveLoop => exact .pure _
    | result w => exact .pure _
    | next => exact ih
    | nextRound => exact ih

theorem below_exec (s : Stmt) : (Plan.exec frame s).EachCall l limit depth (Below depth (sizeOf s)) := by
  cases s with
  | expr e =>
    rw [Stmt.expr.sizeOf_spec]
    exact (below_runEval frame e (by omega)).bind fun v => .pure _
  | assign target e =>
    rw [Stmt.assign.sizeOf_spec]
    refine (below_runEval frame e (by omega)).bind fun v => ?_
    have assigned : (Task.assign frame target v).size < 1 + sizeOf target + sizeOf e := by
      rw [Task.size]
      omega
    exact (below_run assigned).bind fun _ => .pure _
  | augment target op e =>
    rw [Stmt.augment.sizeOf_spec]
    exact (below_augmentTarget frame op e target (by omega) (by omega)).bind fun _ => .pure _
  | branch test body orelse =>
    rw [Stmt.branch.sizeOf_spec]
    refine (below_runEval frame test (by omega)).bind fun v => (EachCall.request _).bind fun b => ?_
    exact .ite (below_runBlock frame body (by omega)) (below_runBlock frame orelse (by omega))
  | loop target iter body =>
    rw [Stmt.loop.sizeOf_spec]
    refine (below_runEval frame iter (by omega)).bind fun v => (EachCall.request _).bind fun items => ?_
    exact below_rounds frame target body items (by omega) (by omega)
  | giveBack value =>
    cases value with
    | none => exact .pure _
    | some e =>
      rw [Stmt.giveBack.sizeOf_spec, Option.some.sizeOf_spec]
      exact (below_runEval frame e (by omega)).bind fun v => .pure _
  | define x id defaults =>
    rw [Stmt.define.sizeOf_spec]
    refine (below_evalAll frame defaults (by omega)).bind fun vs => ?_
    exact (EachCall.request _).bind fun f => (EachCall.request _).bind fun _ => .pure _
  | leaveLoop => exact .pure _
  | nextRound => exact .pure _
  | pass => exact .pure _

theorem below_execBlock (stmts : List Stmt) (h : sizeOf stmts ≤ n) :
    (Plan.execBlock frame stmts).EachCall l limit depth (Below depth n) := by
  induction stmts with
  | nil => exact .pure _
  | cons s ss ih =>
    rw [List.cons.sizeOf_spec] at h
    have first : (Task.exec frame s).size < n := by rw [Task.size]; omega
    refine (EachCall.request _).bind fun _ => (below_run first).bind fun flow => ?_
    cases flow with
    | next => exact ih (by omega)
    | _ => exact .pure _

theorem below_execBody (b : Body) : (Plan.execBody frame b).EachCall l limit depth (Below depth (sizeOf b)) := by
  cases b with
  | expr e =>
    rw [Body.expr.sizeOf_spec]
    exact below_runEval frame e (by omega)
  | block stmts =>
    rw [Body.block.sizeOf_spec]
    refine (below_runBlock frame stmts (by omega)).bind fun flow => ?_
    cases flow <;> exact .pure _

theorem below_execAll (stmts : List Stmt) (h : sizeOf stmts < n) :
    (Plan.execAll stmts).EachCall l limit depth (Below depth n) := by
  induction stmts with
  | nil => exact .pure ()
  | cons s ss ih =>
    rw [List.cons.sizeOf_spec] at h
    have positive : 0 < sizeOf ss := by
      cases ss with
      | nil => simp
      | cons s ss =>
        rw [List.cons.sizeOf_spec]
        omega
    have single : sizeOf [s] < n := by
      rw [List.cons.sizeOf_spec, List.nil.sizeOf_spec]
      omega
    refine (below_runBlock none [s] single).bind fun flow => ?_
    exact (EachCall.request _).bind fun _ => ih (by omega)

end code

end Plan

/-! ## Calls -/

/-- A call is let through only below the limit. -/
theorem Request.lt_of_checkDepth {l : Library} {depth : Nat} {m m' : Machine}
    (h : Request.checkDepth.perform l depth m = .ok () m') : depth < m.depthLimit := by
  by_contra reached
  rw [Plan.checkDepth_of_le (Nat.le_of_not_lt reached)] at h
  cases h

variable {l : Library} {limit depth : Nat}

theorem Plan.smaller_call (v : Value) (args : Args) :
    (Plan.call v args).EachCall l limit depth fun j =>
      j.depth ≤ limit ∧ j.Smaller limit ⟨depth, .call v args⟩ := by
  have entered : ∀ body : Task Value, depth < limit →
      (⟨depth + 1, body⟩ : Job).depth ≤ limit ∧
        (⟨depth + 1, body⟩ : Job).Smaller limit ⟨depth, .call v args⟩ := by
    intro body h
    refine ⟨h, Prod.Lex.left _ _ ?_⟩
    show limit - (depth + 1) < limit - depth
    omega
  refine (EachCall.request _).bind fun callee => ?_
  cases callee with
  | function c =>
    refine EachCall.request_bind fun m _ m' hm allowed => ?_
    have below := Request.lt_of_checkDepth allowed
    refine (EachCall.request _).bind fun f => (EachCall.request _).bind fun bindings =>
      (EachCall.request _).bind fun a => ?_
    exact eachCall_enter.2 ⟨entered _ (hm ▸ below), eachCall_done⟩
  | native id receiver =>
    refine EachCall.request_bind fun m _ m' hm allowed => ?_
    have below := Request.lt_of_checkDepth allowed
    refine (EachCall.request _).bind fun e => ?_
    exact eachCall_enter.2 ⟨entered _ (hm ▸ below), eachCall_done⟩

/-- Every recursive call of a task is smaller than the task and stays within the limit. -/
theorem Task.smaller_plan {α : Type} (t : Task α) (h : depth ≤ limit) :
    t.plan.EachCall l limit depth fun j => j.depth ≤ limit ∧ j.Smaller limit ⟨depth, t⟩ := by
  have syntactic : t.plan.EachCall l limit depth (Job.Below depth t.size) →
      t.plan.EachCall l limit depth fun j => j.depth ≤ limit ∧ j.Smaller limit ⟨depth, t⟩ := by
    intro below
    exact below.imp fun j hj => ⟨hj.1 ▸ h, hj.smaller⟩
  cases t with
  | eval frame e => exact syntactic (Plan.below_eval frame e)
  | assign frame target v => exact syntactic (Plan.below_assign frame target v)
  | exec frame s => exact syntactic (Plan.below_exec frame s)
  | block frame stmts => exact syntactic (Plan.below_execBlock frame stmts (Nat.le_refl _))
  | body frame b => exact syntactic (Plan.below_execBody frame b)
  | native e receiver args => exact .request _
  | call v args => exact Plan.smaller_call v args
  | program stmts => exact syntactic (Plan.below_execAll stmts (Nat.lt_succ_self _))

end Scriptlet
