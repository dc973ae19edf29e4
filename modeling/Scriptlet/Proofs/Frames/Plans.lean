import Scriptlet.Proofs.Code.Needs
import Scriptlet.Proofs.Stepping.Requests

/-!
# Plans and the frames they are for

Code runs in the frame of a call or at the module level, and so do its plans: all that a plan asks for, and all
tasks that it runs, are for one frame or for none. A plan asks for a new frame only to enter a call with it at once,
it collects only at the module level, and the functions that it makes are nested just if it has a frame.
-/

namespace Scriptlet

open Call (Args)
open Code (Arg Body Expr Need Stmt Target)
open Heap (Frame)

/-- A function that code makes is in the table, and it is nested as told. -/
def Library.Makes (l : Library) (nested : Bool) : Need → Prop
  | .make id _ => ∃ f, l.function id = .ok f ∧ f.nested = nested
  | _ => True

/-- All functions that the bodies of functions make are in the table and nested. -/
def Library.Nests (l : Library) : Prop :=
  ∀ id f, l.function id = .ok f → ∀ need ∈ f.body.needs, l.Makes true need

/-- The task runs in a frame or at the module level, and the functions that its code makes are nested just if it
has a frame. -/
def Task.Suits (l : Library) (frame : Option Address) {α : Type} : Task α → Prop
  | .eval frame' e => frame' = frame ∧ ∀ need ∈ e.needs, l.Makes frame.isSome need
  | .assign frame' target _ => frame' = frame ∧ ∀ need ∈ target.needs, l.Makes frame.isSome need
  | .exec frame' s => frame' = frame ∧ ∀ need ∈ s.needs, l.Makes frame.isSome need
  | .block frame' stmts => frame' = frame ∧ ∀ need ∈ Code.blockNeeds stmts, l.Makes frame.isSome need
  | .body frame' b => frame' = frame ∧ ∀ need ∈ b.needs, l.Makes frame.isSome need
  | .native .. => True
  | .call .. => True
  | .program stmts => frame = none ∧ ∀ need ∈ Code.blockNeeds stmts, l.Makes false need

/-- What may be asked for a frame or at the module level, other than a new frame. -/
def Request.Suits (l : Library) (frame : Option Address) {α : Type} : Request α → Prop
  | .function frame' id _ => frame' = frame ∧ ∃ f, l.function id = .ok f ∧ f.nested = frame.isSome
  | .newFrame _ => False
  | .collectIfDue => frame = none
  | _ => True

/-- The plan is for a frame or for the module level. -/
inductive Plan.Suits (l : Library) (frame : Option Address) {α : Type} : Plan α → Prop where
  | done (a : α) : Suits l frame (.done a)
  | ask {β : Type} {r : Request β} {next : β → Plan α} (suits : r.Suits l frame)
      (more : ∀ depth m b m', r.perform l depth m = .ok b m' → Suits l frame (next b)) :
      Suits l frame (.ask r next)
  | recur {β : Type} {t : Task β} {next : β → Plan α} (suits : t.Suits l frame)
      (more : ∀ b, Suits l frame (next b)) : Suits l frame (.recur t next)
  | call {f : Frame} {name : String} {body : Body} {next : Value → Plan α} (unmarked : f.captured = false)
      (nested : ∀ need ∈ body.needs, l.Makes true need) (more : ∀ v, Suits l frame (next v)) :
      Suits l frame (.ask (.newFrame f) fun a => .enter name (some a) (.body (some a) body) next)
  | native {name : String} {id : NativeId} {receiver : Option Value} {args : Args}
      {next : Value → Plan α} (more : ∀ v, Suits l frame (next v)) :
      Suits l frame (.enter name none (.native id receiver args) next)

namespace Plan

variable {l : Library} {frame : Option Address} {α β : Type}

namespace Suits

theorem pure (a : α) : (Pure.pure a : Plan α).Suits l frame := .done a

/-- What follows a plan is for the same frame. A new frame is entered at once, so nothing can come in between. -/
theorem bind {p : Plan α} {f : α → Plan β} (hp : p.Suits l frame) (hf : ∀ a, (f a).Suits l frame) :
    (p >>= f).Suits l frame := by
  show (p.bind f).Suits l frame
  induction hp with
  | done a => exact hf a
  | ask suits _ ih => exact .ask suits ih
  | recur suits _ ih => exact .recur suits ih
  | call unmarked nested _ ih => exact .call unmarked nested ih
  | native _ ih => exact .native ih

theorem request {r : Request α} (h : r.Suits l frame) : (Plan.request r).Suits l frame :=
  .ask h fun _ _ a _ _ => .done a

theorem run {t : Task α} (h : t.Suits l frame) : (Plan.run t).Suits l frame := .recur h .done

theorem request_bind {r : Request α} {f : α → Plan β} (h : r.Suits l frame)
    (hf : ∀ a, (f a).Suits l frame) : (Plan.request r >>= f).Suits l frame :=
  (request h).bind hf

theorem run_bind {t : Task α} {f : α → Plan β} (h : t.Suits l frame) (hf : ∀ a, (f a).Suits l frame) :
    (Plan.run t >>= f).Suits l frame :=
  (run h).bind hf

theorem ite {c : Prop} [Decidable c] {p q : Plan α} (hp : p.Suits l frame) (hq : q.Suits l frame) :
    (if c then p else q).Suits l frame := by
  by_cases h : c
  · rw [if_pos h]
    exact hp
  · rw [if_neg h]
    exact hq

end Suits

/-! ## Code -/

section code

variable (frame)

/-- Parts of an expression are evaluated in the frame of the expression. -/
theorem suits_runEval {e : Expr} (h : ∀ need ∈ e.needs, l.Makes frame.isSome need) :
    (run (.eval frame e)).Suits l frame :=
  .run ⟨rfl, h⟩

theorem suits_runBlock {stmts : List Stmt} (h : ∀ need ∈ Code.blockNeeds stmts, l.Makes frame.isSome need) :
    (run (.block frame stmts)).Suits l frame :=
  .run ⟨rfl, h⟩

theorem suits_evalAll (es : List Expr) (h : ∀ need ∈ Code.exprsNeeds es, l.Makes frame.isSome need) :
    (evalAll frame es).Suits l frame := by
  induction es with
  | nil => exact .pure []
  | cons e es ih =>
    obtain ⟨first, rest⟩ := List.forall_mem_append.1 h
    exact (suits_runEval frame first).bind fun v => (ih rest).bind fun vs => .pure _

theorem suits_evalEntries (entries : OrderedMap Key (Value × Value)) (es : List (Expr × Expr))
    (h : ∀ need ∈ Code.entriesNeeds es, l.Makes frame.isSome need) : (evalEntries frame entries es).Suits l frame := by
  induction es generalizing entries with
  | nil => exact .pure entries
  | cons e es ih =>
    obtain ⟨first, rest⟩ := List.forall_mem_append.1 h
    obtain ⟨index, value⟩ := List.forall_mem_append.1 first
    refine (suits_runEval frame index).bind fun i => (suits_runEval frame value).bind fun v => ?_
    exact Suits.request_bind trivial fun key => ih _ rest

/-- Arguments are evaluated for the frame of the caller, not for the one that the call will get. -/
theorem suits_evalArgs (args : List Arg) (h : ∀ need ∈ Code.argsNeeds args, l.Makes frame.isSome need) :
    (evalArgs frame args).Suits l frame := by
  induction args with
  | nil => exact .pure _
  | cons a more ih =>
    cases a with
    | positional e =>
      obtain ⟨first, rest⟩ := List.forall_mem_append.1 h
      exact (suits_runEval frame first).bind fun v => (ih rest).bind fun args => .pure _
    | keyword x e =>
      obtain ⟨first, rest⟩ := List.forall_mem_append.1 (List.forall_mem_cons.1 h).2
      exact (suits_runEval frame first).bind fun v => (ih rest).bind fun args => .pure _
    | spread e =>
      obtain ⟨first, rest⟩ := List.forall_mem_append.1 h
      refine (suits_runEval frame first).bind fun v => Suits.request_bind trivial fun items => ?_
      exact (ih rest).bind fun args => .pure _
    | spreadKeywords e =>
      obtain ⟨first, rest⟩ := List.forall_mem_append.1 h
      refine (suits_runEval frame first).bind fun v => Suits.request_bind trivial fun keywords => ?_
      exact (ih rest).bind fun args => .pure _

/-- One case for each expression. Only a definition asks for what depends on the frame: it makes a function that is
nested just if there is a frame. -/
theorem suits_eval (e : Expr) (h : ∀ need ∈ e.needs, l.Makes frame.isSome need) :
    (Plan.eval frame e).Suits l frame := by
  cases e with
  | literal value => exact .pure _
  | name x => exact .request trivial
  | list items => exact (suits_evalAll frame items h).bind fun vs => .request trivial
  | tuple items => exact (suits_evalAll frame items h).bind fun vs => .request trivial
  | dict entries => exact (suits_evalEntries frame _ entries h).bind fun es => .request trivial
  | index object index =>
    obtain ⟨ho, hi⟩ := List.forall_mem_append.1 h
    exact (suits_runEval frame ho).bind fun v => (suits_runEval frame hi).bind fun i => .request trivial
  | attr object attr =>
    exact (suits_runEval frame (List.forall_mem_cons.1 h).2).bind fun v => .request trivial
  | call callee args =>
    obtain ⟨hc, ha⟩ := List.forall_mem_append.1 h
    refine (suits_runEval frame hc).bind fun v => (suits_evalArgs frame args ha).bind fun args => ?_
    exact .run trivial
  | binary left op right =>
    obtain ⟨hl, hr⟩ := List.forall_mem_append.1 h
    exact (suits_runEval frame hl).bind fun v => (suits_runEval frame hr).bind fun w => .request trivial
  | compare left op right =>
    obtain ⟨hl, hr⟩ := List.forall_mem_append.1 h
    refine (suits_runEval frame hl).bind fun v => (suits_runEval frame hr).bind fun w => ?_
    exact Suits.request_bind trivial fun b => .pure _
  | not operand =>
    exact (suits_runEval (e := operand) frame h).bind fun v => Suits.request_bind trivial fun b => .pure _
  | neg operand => exact (suits_runEval (e := operand) frame h).bind fun v => .request trivial
  | and left right =>
    obtain ⟨hl, hr⟩ := List.forall_mem_append.1 h
    refine (suits_runEval frame hl).bind fun v => Suits.request_bind trivial fun b => ?_
    exact .ite (suits_runEval frame hr) (.pure v)
  | or left right =>
    obtain ⟨hl, hr⟩ := List.forall_mem_append.1 h
    refine (suits_runEval frame hl).bind fun v => Suits.request_bind trivial fun b => ?_
    exact .ite (.pure v) (suits_runEval frame hr)
  | cond test body orelse =>
    obtain ⟨first, ho⟩ := List.forall_mem_append.1 h
    obtain ⟨ht, hb⟩ := List.forall_mem_append.1 first
    refine (suits_runEval frame ht).bind fun v => Suits.request_bind trivial fun b => ?_
    exact .ite (suits_runEval frame hb) (suits_runEval frame ho)
  | function id defaults =>
    obtain ⟨made, hd⟩ := List.forall_mem_cons.1 h
    exact (suits_evalAll frame defaults hd).bind fun vs => .request ⟨rfl, made⟩

theorem suits_assignAll (targets : List Target) (vs : List Value)
    (h : ∀ need ∈ Code.targetsNeeds targets, l.Makes frame.isSome need) :
    (assignAll frame targets vs).Suits l frame := by
  induction targets generalizing vs with
  | nil => exact .pure ()
  | cons t ts ih =>
    obtain ⟨first, rest⟩ := List.forall_mem_append.1 h
    cases vs with
    | nil => exact .pure ()
    | cons v vs => exact Suits.run_bind ⟨rfl, first⟩ fun _ => ih vs rest

theorem suits_assign (target : Target) (v : Value)
    (h : ∀ need ∈ target.needs, l.Makes frame.isSome need) : (Plan.assign frame target v).Suits l frame := by
  cases target with
  | name x => exact .request trivial
  | index object index =>
    obtain ⟨ho, hi⟩ := List.forall_mem_append.1 h
    exact (suits_runEval frame ho).bind fun o => (suits_runEval frame hi).bind fun i => .request trivial
  | tuple targets =>
    refine Suits.request_bind trivial fun items => ?_
    exact .ite (suits_assignAll frame targets items h) (.request trivial)

theorem suits_augmentTarget (op : Program.Operator) {e : Expr} {target : Target}
    (ht : ∀ need ∈ target.needs, l.Makes frame.isSome need)
    (he : ∀ need ∈ e.needs, l.Makes frame.isSome need) : (augmentTarget frame op e target).Suits l frame := by
  cases target with
  | name x =>
    refine Suits.request_bind trivial fun current => (suits_runEval frame he).bind fun v => ?_
    exact Suits.request_bind trivial fun updated => .request trivial
  | index object index =>
    obtain ⟨ho, hi⟩ := List.forall_mem_append.1 ht
    refine (suits_runEval frame ho).bind fun o => (suits_runEval frame hi).bind fun i => ?_
    refine Suits.request_bind trivial fun current => (suits_runEval frame he).bind fun v => ?_
    exact Suits.request_bind trivial fun updated => .request trivial
  | tuple targets => exact .request trivial

/-- The rounds of a loop run in the frame of the loop, whichever way a round ends. -/
theorem suits_rounds {target : Target} {body : List Stmt} (items : List Value)
    (ht : ∀ need ∈ target.needs, l.Makes frame.isSome need)
    (hb : ∀ need ∈ Code.blockNeeds body, l.Makes frame.isSome need) :
    (rounds frame target body items).Suits l frame := by
  induction items with
  | nil => exact .pure _
  | cons v vs ih =>
    refine Suits.run_bind ⟨rfl, ht⟩ fun _ => (suits_runBlock frame hb).bind fun flow => ?_
    cases flow with
    | leaveLoop => exact .pure _
    | result w => exact .pure _
    | next => exact ih
    | nextRound => exact ih

/-- One case for each statement, with definitions again as the case that depends on the frame. -/
theorem suits_exec (s : Stmt) (h : ∀ need ∈ s.needs, l.Makes frame.isSome need) :
    (Plan.exec frame s).Suits l frame := by
  cases s with
  | expr e => exact (suits_runEval frame h).bind fun v => .pure _
  | assign target e =>
    obtain ⟨ht, he⟩ := List.forall_mem_append.1 h
    exact (suits_runEval frame he).bind fun v => Suits.run_bind ⟨rfl, ht⟩ fun _ => .pure _
  | augment target op e =>
    obtain ⟨first, he⟩ := List.forall_mem_append.1 h
    exact (suits_augmentTarget frame op (List.forall_mem_append.1 first).2 he).bind fun _ => .pure _
  | branch test body orelse =>
    obtain ⟨first, ho⟩ := List.forall_mem_append.1 h
    obtain ⟨ht, hb⟩ := List.forall_mem_append.1 first
    refine (suits_runEval frame ht).bind fun v => Suits.request_bind trivial fun b => ?_
    exact .ite (suits_runBlock frame hb) (suits_runBlock frame ho)
  | loop target iter body =>
    obtain ⟨first, hb⟩ := List.forall_mem_append.1 h
    obtain ⟨ht, hi⟩ := List.forall_mem_append.1 first
    refine (suits_runEval frame hi).bind fun v => Suits.request_bind trivial fun items => ?_
    exact suits_rounds frame items ht hb
  | giveBack value =>
    cases value with
    | none => exact .pure _
    | some e => exact (suits_runEval frame h).bind fun v => .pure _
  | define x id defaults =>
    obtain ⟨made, hd⟩ := List.forall_mem_cons.1 (List.forall_mem_cons.1 h).2
    refine (suits_evalAll frame defaults hd).bind fun vs => Suits.request_bind ⟨rfl, made⟩ fun f => ?_
    exact Suits.request_bind trivial fun _ => .pure _
  | leaveLoop => exact .pure _
  | nextRound => exact .pure _
  | pass => exact .pure _

theorem suits_execBlock (stmts : List Stmt) (h : ∀ need ∈ Code.blockNeeds stmts, l.Makes frame.isSome need) :
    (Plan.execBlock frame stmts).Suits l frame := by
  induction stmts with
  | nil => exact .pure _
  | cons s ss ih =>
    obtain ⟨first, rest⟩ := List.forall_mem_append.1 h
    refine Suits.request_bind trivial fun _ => Suits.run_bind ⟨rfl, first⟩ fun flow => ?_
    cases flow with
    | next => exact ih rest
    | _ => exact .pure _

theorem suits_execBody (b : Body) (h : ∀ need ∈ b.needs, l.Makes frame.isSome need) :
    (Plan.execBody frame b).Suits l frame := by
  cases b with
  | expr e => exact suits_runEval frame h
  | block stmts =>
    refine (suits_runBlock frame h).bind fun flow => ?_
    cases flow <;> exact .pure _

end code

/-- A program runs without a frame and may collect between its statements. -/
theorem suits_execAll (stmts : List Stmt) (h : ∀ need ∈ Code.blockNeeds stmts, l.Makes false need) :
    (Plan.execAll stmts).Suits l none := by
  induction stmts with
  | nil => exact .pure ()
  | cons s ss ih =>
    obtain ⟨first, rest⟩ := List.forall_mem_append.1 h
    have single : ∀ need ∈ Code.blockNeeds [s], l.Makes false need :=
      List.forall_mem_append.2 ⟨first, List.forall_mem_nil _⟩
    refine (suits_runBlock none single).bind fun flow => ?_
    exact Suits.request_bind rfl fun _ => ih rest

/-- A call runs the body of a function of the table, or a host function. -/
theorem suits_call (nests : l.Nests) (v : Value) (args : Args) : (Plan.call v args).Suits l frame := by
  refine Suits.request_bind trivial fun callee => ?_
  cases callee with
  | function c =>
    refine Suits.request_bind trivial fun _ => .ask trivial fun depth m f m' found => ?_
    have known := nests c.function f (Run.inspect_eq_ok.1 found).1
    exact Suits.request_bind trivial fun bindings => .call rfl known .done
  | native id receiver =>
    refine Suits.request_bind trivial fun _ => Suits.request_bind trivial fun e => ?_
    exact .native .done

end Plan

/-- The plan of a task is for what the task is for. -/
theorem Task.suits_plan {l : Library} (nests : l.Nests) {frame : Option Address} {α : Type} {t : Task α}
    (h : t.Suits l frame) : t.plan.Suits l frame := by
  cases t with
  | eval frame' e =>
    obtain ⟨rfl, h⟩ := h
    exact Plan.suits_eval _ e h
  | assign frame' target v =>
    obtain ⟨rfl, h⟩ := h
    exact Plan.suits_assign _ target v h
  | exec frame' s =>
    obtain ⟨rfl, h⟩ := h
    exact Plan.suits_exec _ s h
  | block frame' stmts =>
    obtain ⟨rfl, h⟩ := h
    exact Plan.suits_execBlock _ stmts h
  | body frame' b =>
    obtain ⟨rfl, h⟩ := h
    exact Plan.suits_execBody _ b h
  | native id receiver args => exact .request trivial
  | call v args => exact Plan.suits_call nests v args
  | program stmts =>
    obtain ⟨rfl, h⟩ := h
    exact Plan.suits_execAll stmts h

end Scriptlet
