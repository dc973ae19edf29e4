import Mathlib.Logic.Function.Iterate
import Scriptlet.Proofs.Stepping.Descent

/-!
# Outcomes are delivered

Each task hands its outcome to the stack after finitely many steps, by induction on the rank of tasks: the
recursive calls of a task have smaller ranks. So the stepping machine comes to a halt from every start, with what
the evaluator says.
-/

namespace Scriptlet

namespace Configuration

variable {ω : Type} {l : Library}

section ask

variable {α β : Type} {r : Request β} {next : β → Plan α} {stack : Stack ω α} {depth : Nat}
  {m m' : Machine}

theorem step_ask_ok {b : β} (answer : r.perform l depth m = .ok b m') :
    step l (.running (.ask r next) stack depth m) = .running (next b) stack depth m' := by
  simp only [step, answer]

theorem step_ask_error {f : Failure} (answer : r.perform l depth m = .error f m') :
    step l (.running (.ask r next) stack depth m) = .unwinding f stack depth m' := by
  simp only [step, answer]

end ask

/-- The machine gets from one configuration to another in finitely many steps. -/
def Reaches (l : Library) (c c' : Configuration ω) : Prop := ∃ n, (step l)^[n] c = c'

theorem Reaches.refl (c : Configuration ω) : Reaches l c c := ⟨0, rfl⟩

theorem Reaches.of_step {c c' : Configuration ω} (h : Reaches l (step l c) c') : Reaches l c c' := by
  obtain ⟨n, hn⟩ := h
  exact ⟨n + 1, hn⟩

theorem Reaches.trans {c₁ c₂ c₃ : Configuration ω} (h : Reaches l c₁ c₂) (h' : Reaches l c₂ c₃) : Reaches l c₁ c₃ := by
  obtain ⟨n, hn⟩ := h
  obtain ⟨n', hn'⟩ := h'
  refine ⟨n' + n, ?_⟩
  rw [Function.iterate_add_apply, hn, hn']

end Configuration

open Scriptlet.Configuration (Reaches handing start step)

/-- A task hands its outcome to whatever waits for it, with as many calls open as before, and the limit stays. -/
def Job.Delivers (l : Library) (limit : Nat) (j : Job) : Prop :=
  ∀ {ω : Type} (stack : Stack ω j.result) (m : Machine), m.depthLimit = limit →
    Reaches l (.running j.task.plan stack j.depth m)
      (handing stack j.depth (j.task.outcome l limit j.depth m)) ∧
    ∀ a m', j.task.outcome l limit j.depth m = .ok a m' → m'.depthLimit = limit

namespace Run

/-- How a call of `name` is left by a machine, after which `depth` calls are open: the tracer is told, and then at
most a broken table is found. -/
inductive Leaves (name : String) (depth : Nat) (m : Machine) :
    EStateM.Result Failure Machine Unit → Prop where
  | ok {m' : Machine} (limit_eq : m'.depthLimit = m.depthLimit)
      (told : m'.tracer = m.tracer.observe (.leave name depth)) : Leaves name depth m (.ok () m')
  | broken {m' : Machine} (table : Table) (i : Nat) (limit_eq : m'.depthLimit = m.depthLimit)
      (told : m'.tracer = m.tracer.observe (.leave name depth)) :
      Leaves name depth m (.error (.broken table i) m')

theorem leaves_leaveCall (name : String) (frame : Option Address) (depth : Nat) (m : Machine) :
    Leaves name depth m (leaveCall name frame depth m) := by
  have told : observe (.leave name depth) m =
      .ok () { m with tracer := m.tracer.observe (.leave name depth) } := rfl
  rw [leaveCall, bind_of_ok told]
  cases frame with
  | none => exact .ok rfl rfl
  | some a =>
    have kept := Heap.along_releaseFrame Heap.sameLimit_discard a m.store.heap
    simp only [release]
    cases released : Heap.releaseFrame a m.store.heap with
    | ok u heap =>
      rw [onStore_onHeap_ok (m := { m with tracer := m.tracer.observe (.leave name depth) }) released]
      rw [released] at kept
      cases kept with
      | ok same => exact .ok same rfl
    | error f heap =>
      rw [onStore_onHeap_error (m := { m with tracer := m.tracer.observe (.leave name depth) })
        released]
      rw [released] at kept
      cases kept with
      | error same =>
        -- Only a frame outside the heap cannot be released.
        unfold Heap.releaseFrame at released
        split at released
        · cases released
          exact .broken _ _ same rfl
        · split at released <;> cases released

/-- What is done after a call is left is done by a machine whose tracer knows of it, unless a broken table is
found. -/
theorem leaveCall_bind_cases {α : Type} (name : String) (frame : Option Address) (depth : Nat)
    (m : Machine) (x : Run α) :
    ∃ m' : Machine, m'.depthLimit = m.depthLimit ∧ m'.tracer = m.tracer.observe (.leave name depth) ∧
      ((do leaveCall name frame depth; x : Run α) m = x m' ∨
        ∃ table i, (do leaveCall name frame depth; x : Run α) m = .error (.broken table i) m') := by
  have leaves := leaves_leaveCall name frame depth m
  cases left : leaveCall name frame depth m with
  | ok u m' =>
    rw [left] at leaves
    cases leaves with
    | ok limit_eq told => exact ⟨m', limit_eq, told, .inl (bind_of_ok left)⟩
  | error f m' =>
    rw [left] at leaves
    cases leaves with
    | broken table i limit_eq told =>
      exact ⟨m', limit_eq, told, .inr ⟨table, i, bind_of_error left⟩⟩

theorem depthLimit_leaveCall {name : String} {frame : Option Address} {depth : Nat} {m m' : Machine}
    (h : leaveCall name frame depth m = .ok () m') : m'.depthLimit = m.depthLimit := by
  have leaves := leaves_leaveCall name frame depth m
  rw [h] at leaves
  cases leaves with
  | ok limit_eq told => exact limit_eq

end Run

/-- Goes on with the result of a computation, unless it failed. -/
def andThen {α β : Type} (r : EStateM.Result Failure Machine α) (x : α → Run β) : EStateM.Result Failure Machine β :=
  match r with
  | .ok a m => x a m
  | .error f m => .error f m

theorem andThen_eq_ok {α β : Type} {r : EStateM.Result Failure Machine α} {x : α → Run β} {b : β}
    {m' : Machine} (h : andThen r x = .ok b m') : ∃ a m, r = .ok a m ∧ x a m = .ok b m' := by
  cases r with
  | ok a m => exact ⟨a, m, rfl, h⟩
  | error f m => cases h

namespace Plan

variable {ω α β : Type} {l : Library} {limit depth : Nat} {name : String} {frame : Option Address} {m : Machine}

/-- A plan that waits for a result goes on with it and passes a failure on. -/
theorem reaches_resume {next : α → Plan β} {stack : Stack ω β} {r : EStateM.Result Failure Machine α}
    (h : ∀ a m, r = .ok a m → Reaches l (.running (next a) stack depth m)
      (handing stack depth ((next a).outcome l limit depth m))) :
    Reaches l (handing (.resume next stack) depth r)
      (handing stack depth (andThen r fun a => (next a).outcome l limit depth)) := by
  cases r with
  | ok a m => exact .of_step (h a m rfl)
  | error f m => exact .of_step (.refl _)

/-- A call that is left hands its result or failure on. -/
theorem reaches_leave {stack : Stack ω Value} {r : EStateM.Result Failure Machine Value} :
    Reaches l (handing (.leave name frame stack) (depth + 1) r) (handing stack depth
      (match r with
        | .ok v m => (do Run.leaveCall name frame depth; return v : Run Value) m
        | .error f m => (do Run.leaveCall name frame depth; throw (f.leaving name) : Run Value) m)) := by
  cases r with
  | ok v m => exact .of_step (.refl _)
  | error f m => exact .of_step (.refl _)

theorem outcome_ask {r : Request β} {next : β → Plan α} :
    (Plan.ask r next).outcome l limit depth m =
      andThen (r.perform l depth m) fun b => (next b).outcome l limit depth := by
  show EStateM.bind _ _ m = _
  unfold EStateM.bind andThen
  cases r.perform l depth m <;> rfl

theorem outcome_recur {t : Task β} {next : β → Plan α} :
    (Plan.recur t next).outcome l limit depth m =
      andThen (t.outcome l limit depth m) fun b => (next b).outcome l limit depth := by
  show EStateM.bind _ _ m = _
  unfold EStateM.bind andThen
  cases t.outcome l limit depth m <;> rfl

/-- What a call comes to once it is entered. -/
def enteredOutcome (l : Library) (limit depth : Nat) (name : String) (frame : Option Address)
    (body : Task Value) (m : Machine) : EStateM.Result Failure Machine Value :=
  match body.outcome l limit (depth + 1)
      { m with tracer := m.tracer.observe (.enter name (depth + 1)) } with
  | .ok v m => (do Run.leaveCall name frame depth; return v : Run Value) m
  | .error f m => (do Run.leaveCall name frame depth; throw (f.leaving name) : Run Value) m

theorem outcome_enter {body : Task Value} {next : Value → Plan α} :
    (Plan.enter name frame body next).outcome l limit depth m =
      andThen (enteredOutcome l limit depth name frame body m) fun v =>
        (next v).outcome l limit depth := by
  have entered : Run.entered name (depth + 1) (body.outcome l limit (depth + 1)) (Run.release frame) m =
      enteredOutcome l limit depth name frame body m := by
    have told : Run.observe (.enter name (depth + 1)) m =
        .ok () { m with tracer := m.tracer.observe (.enter name (depth + 1)) } := rfl
    rw [Run.entered, bind_of_ok told]
    unfold Run.guarded enteredOutcome
    cases body.outcome l limit (depth + 1)
      { m with tracer := m.tracer.observe (.enter name (depth + 1)) } <;> rfl
  show EStateM.bind _ _ m = _
  unfold EStateM.bind andThen
  rw [entered]
  cases enteredOutcome l limit depth name frame body m <;> rfl

theorem depthLimit_enteredOutcome {body : Task Value}
    {m' : Machine} {v : Value} (hbody : ∀ v' m₁, body.outcome l limit (depth + 1)
      { m with tracer := m.tracer.observe (.enter name (depth + 1)) } = .ok v' m₁ →
      m₁.depthLimit = limit)
    (h : enteredOutcome l limit depth name frame body m = .ok v m') : m'.depthLimit = limit := by
  unfold enteredOutcome at h
  split at h
  · rename_i ran
    obtain ⟨_, m₂, left, returned⟩ := bind_eq_ok.1 h
    cases returned
    rw [Run.depthLimit_leaveCall left]
    exact hbody _ _ ran
  · obtain ⟨_, m₂, left, returned⟩ := bind_eq_ok.1 h
    cases returned

/-- If all recursive calls of a plan deliver their outcomes, then so does the plan. -/
theorem reaches_outcome (p : Plan α) (each : p.EachCall l limit depth (Job.Delivers l limit)) (stack : Stack ω α)
    (hm : m.depthLimit = limit) :
    Reaches l (.running p stack depth m) (handing stack depth (p.outcome l limit depth m)) ∧
    ∀ a m', p.outcome l limit depth m = .ok a m' → m'.depthLimit = limit := by
  induction p generalizing m with
  | done a =>
    refine ⟨.refl _, ?_⟩
    intro a' m' h
    cases h
    exact hm
  | ask r next ih =>
    -- The answer of the machine has the same limit, so the induction hypothesis applies to what follows.
    have rest := fun b m' (answer : r.perform l depth m = .ok b m') => by
      have advances := r.along_perform l depth m
      rw [answer] at advances
      cases advances with
      | ok advances =>
        exact ih b (eachCall_ask.1 each m b m' hm answer) (advances.limit.trans hm)
    rw [outcome_ask]
    refine ⟨.of_step ?_, ?_⟩
    · cases answer : r.perform l depth m with
      | ok b m' =>
        rw [Configuration.step_ask_ok answer]
        exact (rest b m' answer).1
      | error f m' =>
        rw [Configuration.step_ask_error answer]
        exact .refl _
    · intro a m' h
      obtain ⟨b, m₁, answer, more⟩ := andThen_eq_ok h
      exact (rest b m₁ answer).2 a m' more
  | recur t next ih =>
    obtain ⟨first, more⟩ := eachCall_recur.1 each
    obtain ⟨delivered, kept⟩ := first (.resume next stack) m hm
    have rest := fun b m' (ran : t.outcome l limit depth m = .ok b m') =>
      ih b (more b) (kept b m' ran)
    rw [outcome_recur]
    refine ⟨.of_step (delivered.trans (reaches_resume fun b m' ran => (rest b m' ran).1)), ?_⟩
    intro a m' h
    obtain ⟨b, m₁, ran, more⟩ := andThen_eq_ok h
    exact (rest b m₁ ran).2 a m' more
  | enter name frame body next ih =>
    obtain ⟨first, more⟩ := eachCall_enter.1 each
    obtain ⟨delivered, kept⟩ := first (.leave name frame (.resume next stack))
      { m with tracer := m.tracer.observe (.enter name (depth + 1)) } hm
    have left : Reaches l (.running body.plan (.leave name frame (.resume next stack)) (depth + 1)
        { m with tracer := m.tracer.observe (.enter name (depth + 1)) })
        (handing (.resume next stack) depth (enteredOutcome l limit depth name frame body m)) :=
      delivered.trans reaches_leave
    have rest := fun v m' (ran : enteredOutcome l limit depth name frame body m = .ok v m') =>
      ih v (more v) (depthLimit_enteredOutcome kept ran)
    rw [outcome_enter]
    refine ⟨.of_step (left.trans (reaches_resume fun v m' ran => (rest v m' ran).1)), ?_⟩
    intro a m' h
    obtain ⟨v, m₁, ran, more⟩ := andThen_eq_ok h
    exact (rest v m₁ ran).2 a m' more

end Plan

/-- Every task within the limit delivers its outcome. -/
theorem Job.delivers (l : Library) (limit : Nat) (j : Job) (h : j.depth ≤ limit) : j.Delivers l limit := by
  induction j using (Job.smaller_wellFounded limit).induction with
  | _ j ih =>
    intro ω stack m hm
    have each : j.task.plan.EachCall l limit j.depth (Job.Delivers l limit) :=
      (j.task.smaller_plan h).imp fun k hk => ih k hk.2 hk.1
    have reached := Plan.reaches_outcome j.task.plan each stack hm
    rw [Task.outcome_plan l limit hm h] at reached
    exact reached

/-- A run of a plan with no call open halts with the outcome of the plan. -/
theorem Plan.halts {ω : Type} {l : Library} {m : Machine} (p : Plan ω)
    (each : p.EachCall l m.depthLimit 0 fun j => j.depth ≤ m.depthLimit) :
    Reaches l (start p m) (.halted (p.outcome l m.depthLimit 0 m)) := by
  have delivering : p.EachCall l m.depthLimit 0 (Job.Delivers l m.depthLimit) :=
    each.imp fun j hj => j.delivers l m.depthLimit hj
  obtain ⟨delivered, -⟩ := p.reaches_outcome delivering .empty rfl
  refine Reaches.trans delivered (.of_step ?_)
  cases p.outcome l m.depthLimit 0 m <;> exact .refl _

/-- A run of a task with no call open halts with the outcome of the task. -/
theorem Task.halts {ω : Type} (l : Library) (t : Task ω) (m : Machine) :
    Reaches l (start t.plan m) (.halted (t.outcome l m.depthLimit 0 m)) := by
  have permitted := t.smaller_plan (l := l) (Nat.zero_le m.depthLimit)
  have halts := t.plan.halts (permitted.imp fun j hj => hj.1)
  rw [Task.outcome_plan l m.depthLimit rfl (Nat.zero_le _)] at halts
  exact halts

end Scriptlet
