import Scriptlet.Proofs.Code.Jumps
import Scriptlet.Proofs.Endings
import Scriptlet.Proofs.Watch.Session

/-!
# Control flow never escapes

A statement of the module level always goes on to the next one, and the body of a function only ever runs off its end or
gives a value back. What is left of a jump is thus never thrown away at module level, and a call never turns it into
none: a call of a function gives back what the statement gave back that ended its body, and none if its body ran off its
end.
-/

namespace Scriptlet

open Budget (Meter)
open Call (Args)
open Code (BlockConfined Body Expr Function Stmt)
open Heap (Closure)

/-! ## Confined code ends as its place allows -/

/-- An ending that is allowed in a loop if `inLoop` and in a call if `inCall`. -/
def Ending.Allowed (inLoop inCall : Bool) : Ending → Prop
  | .ranOff => True
  | .gaveBack .. => inCall
  | .leftLoop => inLoop
  | .nextRound => inLoop

namespace Engine

variable {σ : Type} {k : Engine σ} {s s' : σ} {ending : Ending} {inLoop inCall : Bool}

mutual

theorem StmtEnds.allowed {st : Stmt} {s s' : σ} {ending : Ending} {inLoop inCall : Bool} :
    k.StmtEnds st s ending s' → st.Confined inLoop inCall → ending.Allowed inLoop inCall
  | .expr _, _ => trivial
  | .assign _ _, _ => trivial
  | .augment _, _ => trivial
  | .branch _ _ chosen, confined => chosen.allowed (by split <;> [exact confined.1; exact confined.2])
  | .loop _ _ rounds, confined => rounds.allowed confined
  | .leaveLoop, confined => confined
  | .nextRound, confined => confined
  | .pass, _ => trivial
  | .giveBack _, confined => confined
  | .define _ _ _, _ => trivial

theorem BlockEnds.allowed {ss : List Stmt} {s s' : σ} {ending : Ending} {inLoop inCall : Bool} :
    k.BlockEnds ss s ending s' → BlockConfined inLoop inCall ss → ending.Allowed inLoop inCall
  | .nil, _ => trivial
  | .goesOn _ _ rest, confined => rest.allowed confined.2
  | .stops _ first _, confined => first.allowed confined.1

-- A loop keeps its own jumps, so that its rounds end in the same ways inside and outside of another loop.
theorem RoundsEnd.allowed {t : Code.Target} {body : List Stmt} {items : List Value} {s s' : σ} {ending : Ending}
    {inLoop inCall : Bool} : k.RoundsEnd t body items s ending s' → BlockConfined true inCall body →
    ending.Allowed inLoop inCall
  | .done, _ => trivial
  | .goesOn _ _ _ rest, confined => rest.allowed confined
  | .left _ _, _ => trivial
  | .gaveBack _ first, confined => by
    have called : inCall := first.allowed confined
    exact called

end

/-- A block at module level, outside of all loops, goes on. -/
theorem flow_eq_next {ss : List Stmt} (confined : BlockConfined false false ss) {flow : Flow}
    (ran : k.execBlock ss s = .ok flow s') : flow = .next := by
  obtain ⟨ending, rfl, ended⟩ := execBlock_eq_ok_iff.1 ran
  have allowed := ended.allowed confined
  cases ending with
  | ranOff => rfl
  | _ => cases allowed

/-- The body of a function runs off its end or gives a value back. -/
theorem BlockEnds.of_body {ss : List Stmt} (ended : k.BlockEnds ss s ending s')
    (confined : BlockConfined false true ss) : ending = .ranOff ∨ ∃ e v, ending = .gaveBack e v := by
  have allowed := ended.allowed confined
  cases ending with
  | ranOff => exact .inl rfl
  | gaveBack e v => exact .inr ⟨e, v, rfl⟩
  | leftLoop => cases allowed
  | nextRound => cases allowed

end Engine

/-! ## Calls -/

/-- What a call gives back that ends so. -/
def Ending.value : Ending → Value
  | .gaveBack _ v => v
  | _ => .none

namespace Run

/-- A call of a function whose body is a block, from its beginning to its end: the arguments are bound, the call gets a
frame and is entered, its body runs there and ends, and the call is left. -/
inductive CallEnds (l : Library) (depth : Nat) (call : Value → Args → Run Value) (c : Closure) (args : Args)
    (f : Function) (stmts : List Stmt) : Machine → Ending → Machine → Prop where
  | intro {m m₁ m₂ m₃ m₄ m' : Machine} {bindings : List (String × Value)} {a : Address} {ending : Ending}
    (bound : onStore (Store.onHeap (f.signature.bind f.name c.defaults args)) m = .ok bindings m₁)
    (framed : onStore (Store.onHeap (Heap.allocate (.frame { vars := .ofList bindings, parent := c.frame }))) m₁ =
      .ok a m₂)
    (entered : observe (.enter f.name depth) m₂ = .ok () m₃)
    (ran : (Activation.engine { library := l, depth, frame := some a, call }).BlockEnds stmts m₃ ending m₄)
    (left : leave (.leave f.name (depth - 1)) a m₄ = .ok () m') : CallEnds l depth call c args f stmts m ending m'

variable {l : Library} {depth : Nat} {call : Value → Args → Run Value} {c : Closure} {args : Args} {f : Function}
  {stmts : List Stmt} {m m' : Machine} {v : Value}

theorem guarded_eq_ok {function : String} {body : Run Value} {cleanUp : Run Unit} :
    guarded function body cleanUp m = .ok v m' ↔ ∃ m₁, body m = .ok v m₁ ∧ cleanUp m₁ = .ok () m' := by
  unfold guarded
  cases body m with
  | ok w m₁ =>
    constructor
    · intro h
      obtain ⟨_, m₂, cleaned, h⟩ := bind_eq_ok.1 h
      cases h
      exact ⟨m₁, rfl, cleaned⟩
    · rintro ⟨m₂, same, cleaned⟩
      cases same
      exact bind_of_ok cleaned
  | error e m₁ =>
    constructor
    · intro h
      obtain ⟨_, m₂, -, h⟩ := bind_eq_ok.1 h
      cases h
    · rintro ⟨m₂, same, -⟩
      cases same

/-- A call has run its body to an ending, which says what the call gives back. -/
theorem callFunction_eq_ok_iff (found : l.function c.function = .ok f) (block : f.body = .block stmts) :
    callFunction l depth call c args m = .ok v m' ↔
      ∃ ending, ending.value = v ∧ CallEnds l depth call c args f stmts m ending m' := by
  rw [callFunction_eq found]
  constructor
  · intro h
    obtain ⟨bindings, m₁, bound, h⟩ := bind_eq_ok.1 h
    obtain ⟨a, m₂, framed, h⟩ := bind_eq_ok.1 h
    obtain ⟨_, m₃, entered, h⟩ := bind_eq_ok.1 h
    obtain ⟨m₄, ran, left⟩ := guarded_eq_ok.1 h
    rw [block, Engine.execBody] at ran
    obtain ⟨flow, m₅, ran, given⟩ := bind_eq_ok.1 ran
    obtain ⟨ending, rfl, ended⟩ := Engine.execBlock_eq_ok_iff.1 ran
    cases ending <;> cases given <;> exact ⟨_, rfl, .intro bound framed entered ended left⟩
  · rintro ⟨ending, rfl, bound, framed, entered, ran, left⟩
    rw [bind_of_ok bound, bind_of_ok framed, bind_of_ok entered, guarded_eq_ok, block, Engine.execBody,
      bind_of_ok ran.execBlock]
    cases ending <;> exact ⟨_, rfl, left⟩

theorem CallEnds.of_body {ending : Ending} (h : CallEnds l depth call c args f stmts m ending m')
    (confined : BlockConfined false true stmts) : ending = .ranOff ∨ ∃ e v, ending = .gaveBack e v := by
  obtain ⟨-, -, -, ran, -⟩ := h
  exact ran.of_body confined

end Run

/-! ## Sessions -/

namespace Module

/-- All functions of a module have confined bodies. -/
def Confined (m : Module) : Prop := ∀ f ∈ m.library.functions, f.body.Confined

variable {m : Module}

theorem confined_create (name : String) (meter : Meter) : (create name meter).Confined := by
  intro f hf
  simp [create] at hf

theorem Confined.enter (h : m.Confined) {α : Type} (tracer : Trace.Tracer) (x : Library → Run α) :
    (m.enter tracer x).after.Confined := by
  obtain ⟨store, globals, after⟩ := m.after_enter tracer x
  rw [after]
  exact h

theorem Confined.resolveProgram (h : m.Confined) {program : List Program.Stmt}
    {answer : Except Fault.Malformed (List Stmt)} {after : Module} (resolved : m.resolve (·.resolveProgram program) = (answer, after)) :
    after.Confined ∧ ∀ code, answer = .ok code → BlockConfined false false code := by
  rw [resolve_eq, Prod.mk.injEq] at resolved
  obtain ⟨rfl, rfl⟩ := resolved
  exact Code.Draft.Confined.resolveProgram (d := ⟨m.store.lexicon, m.library.functions⟩) h program

theorem Confined.resolveExpr (h : m.Confined) {e : Program.Expr} {answer : Except Fault.Malformed Expr} {after : Module}
    (resolved : m.resolve (·.resolveExpr e) = (answer, after)) : after.Confined := by
  rw [resolve_eq, Prod.mk.injEq] at resolved
  obtain ⟨rfl, rfl⟩ := resolved
  exact Code.Draft.Confined.resolveExpr (d := ⟨m.store.lexicon, m.library.functions⟩) h e

theorem Confined.exec (h : m.Confined) (tracer : Trace.Tracer) (program : List Program.Stmt) :
    (m.exec tracer program).after.Confined := by
  unfold Module.exec
  cases resolved : m.resolve (·.resolveProgram program) with
  | mk answer after =>
    have kept := (h.resolveProgram resolved).1
    cases answer with
    | ok code => exact kept.enter tracer _
    | error defect => exact kept

theorem Confined.eval (h : m.Confined) (e : Program.Expr) : (m.eval e).after.Confined := by
  unfold Module.eval
  cases resolved : m.resolve (·.resolveExpr e) with
  | mk answer after =>
    have kept := h.resolveExpr resolved
    cases answer with
    | ok code => exact kept.enter .silent _
    | error defect => exact kept

theorem Confined.call (h : m.Confined) (tracer : Trace.Tracer) (name : String) (positional : List Object)
    (keywords : List (String × Object)) : (m.call tracer name positional keywords).after.Confined := by
  unfold Module.call
  cases m.globals.lookup m.library name with
  | error e => exact h
  | ok callee =>
    simp only
    cases buildArgs positional keywords m.store with
    | error e store => exact h
    | ok args store => exact Confined.enter (m := { m with store }) h tracer _

theorem Confined.set (h : m.Confined) (x : String) (o : Object) : (m.set x o).2.Confined := by
  unfold Module.set
  simp only
  split
  · exact h
  · split
    · exact h
    · exact h

/-- Whatever is asked of a module, its functions stay confined. -/
theorem Confined.step (h : m.Confined) (s : Step) : (m.step s).2.Confined := by
  cases s with
  | exec tracer program => exact h.exec tracer program
  | eval e => exact h.eval e
  | call tracer name positional keywords => exact h.call tracer name positional keywords
  | set name o => exact h.set name o
  | _ => exact h

theorem Confined.run (h : m.Confined) (steps : List Step) : (m.run steps).2.Confined := by
  induction steps generalizing m with
  | nil => exact h
  | cons s steps ih => exact ih (h.step s)

theorem Confined.body (h : m.Confined) {id : FunctionId} {f : Function} {stmts : List Stmt}
    (found : m.library.function id = .ok f) (block : f.body = .block stmts) : BlockConfined false true stmts := by
  unfold Library.function at found
  split at found
  · rename_i g stored
    cases found
    have confined := h f (Array.mem_of_getElem? stored)
    rw [block] at confined
    exact confined
  · cases found

end Module

theorem Code.BlockConfined.of_mem {inLoop inCall : Bool} {ss : List Stmt} {st : Stmt}
    (h : BlockConfined inLoop inCall ss) (mem : st ∈ ss) : BlockConfined inLoop inCall [st] := by
  induction ss with
  | nil => cases mem
  | cons first rest ih =>
    rcases List.mem_cons.1 mem with rfl | mem
    · exact ⟨h.1, trivial⟩
    · exact ih h.2 mem

/-- In every session: each statement of an accepted program goes on to the next one or raises; the body of each function
runs off its end, gives a value back or raises; and a call of it gives back none if its body runs off its end, and
otherwise what the statement gave back that ended its body. -/
theorem control_flow_contained (name : String) (meter : Meter) (steps : List Step) :
    let m := ((Module.create name meter).run steps).2
    (∀ program code after, m.resolve (·.resolveProgram program) = (.ok code, after) →
      ∀ st ∈ code, ∀ limit s flow s',
        (Run.topLevel after.library limit).engine.execBlock [st] s = .ok flow s' → flow = .next) ∧
    (∀ id f stmts, m.library.function id = .ok f → f.body = .block stmts →
      ∀ (act : Activation) s flow s', act.engine.execBlock stmts s = .ok flow s' →
        flow = .next ∨ ∃ v, flow = .result v) ∧
    ∀ (c : Closure) f stmts, m.library.function c.function = .ok f → f.body = .block stmts →
      ∀ depth call args s v s', Run.callFunction m.library depth call c args s = .ok v s' ↔
        (v = .none ∧ Run.CallEnds m.library depth call c args f stmts s .ranOff s') ∨
          ∃ e, Run.CallEnds m.library depth call c args f stmts s (.gaveBack e v) s' := by
  intro m
  have confined : m.Confined := (Module.confined_create name meter).run steps
  refine ⟨?_, ?_, ?_⟩
  · intro program code after resolved st hst limit s flow s' ran
    have inner := (confined.resolveProgram resolved).2 code rfl
    exact Engine.flow_eq_next (inner.of_mem hst) ran
  · intro id f stmts found block act s flow s' ran
    obtain ⟨ending, rfl, ended⟩ := Engine.execBlock_eq_ok_iff.1 ran
    rcases ended.of_body (confined.body found block) with rfl | ⟨e, v, rfl⟩
    · exact .inl rfl
    · exact .inr ⟨v, rfl⟩
  · intro c f stmts found block depth call args s v s'
    rw [Run.callFunction_eq_ok_iff found block]
    constructor
    · rintro ⟨ending, rfl, ended⟩
      rcases ended.of_body (confined.body found block) with rfl | ⟨e, v, rfl⟩
      · exact .inl ⟨rfl, ended⟩
      · exact .inr ⟨e, ended⟩
    · rintro (⟨rfl, ended⟩ | ⟨e, ended⟩)
      · exact ⟨.ranOff, rfl, ended⟩
      · exact ⟨.gaveBack e v, rfl, ended⟩

/-- A function that gives back the first item of a list, and runs off its end if there is none. -/
def firstItem : List Program.Stmt :=
  [.define "first" [.required "xs"] [.loop (.name "x") (.name "xs") [.giveBack (some (.name "x"))]]]

theorem control_flow_contained_firstItem : ∃ f stmts,
    ((Module.create "m" (.depthOnly none)).run [.exec .silent firstItem]).2.library.function ⟨0⟩ = .ok f ∧
      f.body = .block stmts ∧ ∀ (act : Activation) s flow s', act.engine.execBlock stmts s = .ok flow s' →
        flow = .next ∨ ∃ v, flow = .result v := by
  obtain ⟨f, stmts, found, block⟩ : ∃ f stmts,
      ((Module.create "m" (.depthOnly none)).run [.exec .silent firstItem]).2.library.function ⟨0⟩ = .ok f ∧
        f.body = .block stmts := ⟨_, _, rfl, rfl⟩
  exact ⟨f, stmts, found, block,
    (control_flow_contained "m" (.depthOnly none) [.exec .silent firstItem]).2.1 ⟨0⟩ f stmts found block⟩

end Scriptlet
