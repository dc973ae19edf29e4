import Scriptlet.Proofs.Frames.Heap
import Scriptlet.Proofs.Frames.Plans
import Scriptlet.Proofs.Tracing.Runs

/-!
# The frames of a run

The calls of functions that are open are followed through a run, step by step: a call is noted when it gets its
frame, a `def` or a `lambda` that runs is noted on the innermost call, and a call that is left is dropped. One step
keeps the heap in agreement with this account, whatever it does and whether or not it fails.
-/

namespace Scriptlet

open Scriptlet.Configuration (handing proceed start unwind)

/-! ## Following a run -/

/-- The frames of the calls on a stack, the innermost first. -/
def Stack.frames {ω α : Type} : Stack ω α → List Address
  | .empty => []
  | .resume _ rest => rest.frames
  | .leave _ frame rest => frame.toList ++ rest.frames

/-- The frame of the call that a plan is about to enter. -/
def Plan.entering {α : Type} : Plan α → List Address
  | .enter _ frame _ _ => frame.toList
  | _ => []

/-- The calls that are open after a request with this answer. A call gets its frame right before it is entered. A
`def` or a `lambda` runs in the innermost call, and it has run even if there is no room for the function. -/
def Request.follow {α : Type} :
    Request α → EStateM.Result Failure Machine α → List ActiveCall → List ActiveCall
  | .newFrame _, .ok a _, calls => ⟨a, false⟩ :: calls
  | .function .., _, calls => ActiveCall.noteDefinition calls
  | _, _, calls => calls

/-- The calls that are open after a result or a failure was handed to what waits for it. -/
def Stack.follow {ω α : Type} : Stack ω α → List ActiveCall → List ActiveCall
  | .leave _ (some _) _, calls => calls.tail
  | _, calls => calls

namespace Configuration

variable {ω : Type}

/-- The frames of the calls of functions that are open, the innermost first. -/
def frames : Configuration ω → List Address
  | .running p stack _ _ => p.entering ++ stack.frames
  | .unwinding _ stack _ _ => stack.frames
  | .halted _ => []

/-- The calls of functions that are open after one step, given those that are open before it. -/
def follow (l : Library) : Configuration ω → List ActiveCall → List ActiveCall
  | .running (.ask r _) _ depth m, calls => r.follow (r.perform l depth m) calls
  | .running (.done _) stack _ _, calls => stack.follow calls
  | .unwinding _ stack _ _, calls => stack.follow calls
  | _, calls => calls

/-- The calls of functions that are open after so many steps of a run that starts with none. -/
def activeCalls (l : Library) (c : Configuration ω) : Nat → List ActiveCall
  | 0 => []
  | n + 1 => ((step l)^[n] c).follow l (c.activeCalls l n)

end Configuration

/-! ## Requests -/

section request

variable {l : Library} {m : Machine} {calls : List ActiveCall} {frame : Option Address}

/-- Only the request for a new frame opens a call. -/
theorem Request.Suits.frames_follow {α : Type} {r : Request α}
    (suits : r.Suits l frame) (answer : EStateM.Result Failure Machine α) :
    (r.follow answer calls).map ActiveCall.frame = calls.map ActiveCall.frame := by
  cases r with
  | function frame id defaults => exact ActiveCall.frames_noteDefinition calls
  | newFrame f => exact suits.elim
  | _ => rfl

/-- A function is made in the innermost call, or outside of all calls. -/
theorem Request.carries_function {id : FunctionId} {f : Code.Function}
    (found : l.function id = .ok f) (nested : f.nested = frame.isSome)
    (innermost : (calls.map ActiveCall.frame).head? = frame) (carried : m.store.heap.Carries calls)
    (depth : Nat) (defaults : List Value) :
    Along.Ends (fun _ m' => m'.store.heap.Carries (ActiveCall.noteDefinition calls)) m
      ((site l depth frame).makeFunction id defaults m) := by
  have makes (c : Heap.Closure) (m₁ : Machine)
      (carried : m₁.store.heap.Carries (ActiveCall.noteDefinition calls)) :
      Along.Ends (fun _ m' => m'.store.heap.Carries (ActiveCall.noteDefinition calls)) m
        (Run.allocate (.closure c) m₁) := by
    have made : Composed (Run.Over Heap.Plain depth) (Run.allocate (.closure c)) :=
      Run.composed_make rfl
    exact (made.along Run.Over.keepsFrames m₁).imp fun _ same => carried.of_same same
  have found : (site l depth frame).library.function id = .ok f := found
  rw [Activation.makeFunction_eq found, nested]
  cases calls with
  | nil =>
    obtain rfl : none = frame := innermost
    exact makes _ { m with tracer := m.tracer.observe _ } carried
  | cons c calls =>
    obtain rfl : some c.frame = frame := innermost
    obtain ⟨g, hg, -⟩ := Heap.captured?_eq_some.1 (carried.present c List.mem_cons_self)
    have observed (e : Trace.Event) : Run.observe e m = .ok () { m with tracer := m.tracer.observe e } := rfl
    have captured (tracer : Trace.Tracer) :
        Run.onStore (Store.onHeap (Heap.captureFrame (site l depth (some c.frame)).frame)) { m with tracer } =
          .ok () (Machine.withHeap { m with tracer } (m.store.heap.update c.frame Heap.Cell.capture)) :=
      Run.onStore_onHeap_ok (m := { m with tracer }) (Heap.captureFrame_frame hg)
    rw [bind_of_ok (observed _), Option.isSome_some, if_pos rfl]
    rw [bind_of_ok (captured _)]
    exact makes _ _ carried.capture

theorem Run.carries_collectIfDue (carried : m.store.heap.Carries []) :
    Along.Ends (fun _ m' => m'.store.heap.Carries []) m (collectIfDue m) := by
  obtain ⟨⟨heap, lexicon⟩, globals, tracer⟩ := m
  refine .ok ?_
  show Heap.Carries (if heap.collectionDue then (heap.collect globals.roots).2 else heap) []
  split
  · exact carried.collect globals.roots
  · exact carried

/-- Whatever is asked for the innermost call, or outside of all calls, the account stays right. -/
theorem Request.carries_perform {α : Type} {r : Request α}
    (suits : r.Suits l frame) (innermost : (calls.map ActiveCall.frame).head? = frame)
    (carried : m.store.heap.Carries calls) (depth : Nat) :
    Along.Ends (fun _ m' => m'.store.heap.Carries (r.follow (r.perform l depth m) calls)) m
      (r.perform l depth m) := by
  have kept {β : Type} {x : Run β} (hx : Along Machine.SameFrames x) :
      Along.Ends (fun _ m' => m'.store.heap.Carries calls) m (x m) :=
    (hx m).imp fun _ same => carried.of_same same
  cases r with
  | function frame' id defaults =>
    obtain ⟨rfl, f, found, nested⟩ := suits
    exact carries_function found nested innermost carried depth defaults
  | newFrame f => exact suits.elim
  | collectIfDue =>
    obtain rfl : frame = none := suits
    obtain rfl := List.map_eq_nil_iff.1 (List.head?_eq_none_iff.1 innermost)
    exact Run.carries_collectIfDue carried
  | checkDepth => exact kept (Run.along_checkDepth depth)
  | native id receiver args => exact kept (keepsFrames_native l depth id receiver args)
  | _ => exact kept (keepsFrames l depth trivial)

end request

/-! ## Steps -/

/-- A plan for a frame or for the module level, or one that is about to enter a call. -/
inductive Plan.Ready (l : Library) (frame : Option Address) {α : Type} : Plan α → Prop where
  | suits {p : Plan α} (h : p.Suits l frame) : Ready l frame p
  | enter {name : String} {a : Address} {body : Code.Body} {next : Value → Plan α}
      (nested : ∀ need ∈ body.needs, l.Makes true need) (more : ∀ v, (next v).Suits l frame) :
      Ready l frame (.enter name (some a) (.body (some a) body) next)

theorem Plan.Suits.entering {l : Library} {frame : Option Address} {α : Type} {p : Plan α}
    (h : p.Suits l frame) : p.entering = [] := by
  cases h <;> rfl

/-- Each plan that waits on a stack is for the innermost call below it. -/
def Stack.Suits (l : Library) {ω α : Type} : Stack ω α → Prop
  | .empty => True
  | .resume next rest => (∀ a, (next a).Suits l rest.frames.head?) ∧ rest.Suits l
  | .leave _ _ rest => rest.Suits l

namespace Configuration

variable {ω : Type} {l : Library} {calls : List ActiveCall} {m : Machine} {depth : Nat}

/-- The plans that are left to do are for the calls that they stand in. -/
def Suits (l : Library) : Configuration ω → Prop
  | .running p stack _ _ => p.Ready l stack.frames.head? ∧ stack.Suits l
  | .unwinding _ stack _ _ => stack.Suits l
  | .halted _ => True

/-- The calls are those whose frames the configuration knows of, and they account for the frames on its heap. -/
structure Accounted (l : Library) (c : Configuration ω) (calls : List ActiveCall) : Prop where
  frames_eq : calls.map ActiveCall.frame = c.frames
  suits : c.Suits l
  carries : c.machine.store.heap.Carries calls

theorem accounted_start {p : Plan ω} (suits : p.Suits l none)
    (carried : m.store.heap.Carries []) : (start p m).Accounted l [] where
  frames_eq := by
    show [] = p.entering ++ []
    rw [suits.entering]
    rfl
  suits := ⟨.suits suits, trivial⟩
  carries := carried

/-- A plan goes on after the step that was its. -/
theorem accounted_running {α : Type} {p : Plan α} (stack : Stack ω α)
    (frames : calls.map ActiveCall.frame = stack.frames) (suits : p.Suits l stack.frames.head?)
    (waiting : stack.Suits l) (carried : m.store.heap.Carries calls) :
    (Configuration.running p stack depth m).Accounted l calls where
  frames_eq := by
    show _ = p.entering ++ stack.frames
    rw [suits.entering]
    exact frames
  suits := ⟨.suits suits, waiting⟩
  carries := carried

/-- Asking for anything but a frame, with or without success. -/
theorem accounted_ask {α β : Type} {r : Request β} {next : β → Plan α} {stack : Stack ω α}
    (suits : r.Suits l stack.frames.head?)
    (more : ∀ depth m b m', r.perform l depth m = .ok b m' → (next b).Suits l stack.frames.head?)
    (frames : calls.map ActiveCall.frame = stack.frames) (waiting : stack.Suits l)
    (carried : m.store.heap.Carries calls) :
    (step l (.running (.ask r next) stack depth m)).Accounted l
      (r.follow (r.perform l depth m) calls) := by
  have ends := Request.carries_perform suits (congrArg List.head? frames) carried depth
  have same : (r.follow (r.perform l depth m) calls).map ActiveCall.frame = stack.frames := by
    rw [suits.frames_follow, frames]
  generalize r.follow (r.perform l depth m) calls = calls' at ends same ⊢
  cases answer : r.perform l depth m with
  | ok b m' =>
    rw [answer] at ends
    rw [step_ask_ok answer]
    cases ends with
    | ok carried => exact accounted_running stack same (more depth m b m' answer) waiting carried
  | error f m' =>
    rw [answer] at ends
    rw [step_ask_error answer]
    cases ends with
    | error carried => exact ⟨same, waiting, carried⟩

/-- Asking for the frame of a call, which is entered next. -/
theorem accounted_newFrame {α : Type} {f : Heap.Frame} {name : String} {body : Code.Body}
    {next : Value → Plan α} {stack : Stack ω α}
    (unmarked : f.captured = false) (nested : ∀ need ∈ body.needs, l.Makes true need)
    (more : ∀ v, (next v).Suits l stack.frames.head?)
    (frames : calls.map ActiveCall.frame = stack.frames) (waiting : stack.Suits l)
    (carried : m.store.heap.Carries calls) :
    (step l (.running
        (.ask (.newFrame f) fun a => .enter name (some a) (.body (some a) body) next) stack depth m)).Accounted l
      ((Request.newFrame f).follow ((Request.newFrame f).perform l depth m) calls) := by
  obtain ⟨use, refused⟩ | ⟨a, heap, allocated, placed⟩ := Run.place_cases carried.tidy (.frame f)
  · have refused : (Request.newFrame f).perform l depth m = .error (.ofCause (.exhausted use)) m := refused
    rw [step_ask_error refused, refused]
    exact ⟨frames, waiting, carried⟩
  · have allocated : (Request.newFrame f).perform l depth m = .ok a (m.withHeap heap) := allocated
    rw [step_ask_ok allocated, allocated]
    exact ⟨congrArg (a :: ·) frames, ⟨.enter nested more, waiting⟩, carried.enter unmarked placed⟩

/-- Leaving a call, with or without a failure. -/
theorem accounted_leave {name : String} {frame : Option Address} {rest : Stack ω Value}
    {x : Run Value} (frames : calls.map ActiveCall.frame = frame.toList ++ rest.frames)
    (waiting : rest.Suits l) (carried : m.store.heap.Carries calls)
    (hx : ∀ m, (∃ v, x m = .ok v m) ∨ ∃ f, x m = .error f m) :
    (handing rest depth ((do Run.leaveCall name frame depth; x : Run Value) m)).Accounted l
      ((Stack.leave name frame rest).follow calls) := by
  -- What is left once the call is over: the result or the failure is handed on.
  have handed (calls : List ActiveCall) (frames : calls.map ActiveCall.frame = rest.frames) (m' : Machine)
      (carried : m'.store.heap.Carries calls) : (handing rest depth (x m')).Accounted l calls := by
    rcases hx m' with ⟨v, hv⟩ | ⟨f, hf⟩
    · rw [hv]
      exact accounted_running rest frames (.done v) waiting carried
    · rw [hf]
      exact ⟨frames, waiting, carried⟩
  cases frame with
  | none =>
    have left : Run.leaveCall name none depth m =
        .ok () { m with tracer := m.tracer.observe (.leave name depth) } := rfl
    rw [bind_of_ok left]
    exact handed calls frames _ carried
  | some a =>
    cases calls with
    | nil => cases frames
    | cons c calls =>
      obtain ⟨rfl, outer⟩ := List.cons.inj frames
      obtain ⟨heap, released, carried⟩ := carried.leave
      have left : Run.leaveCall name (some c.frame) depth m =
          .ok () (Machine.withHeap { m with tracer := m.tracer.observe (.leave name depth) } heap) :=
        Run.onStore_onHeap_ok (m := { m with tracer := m.tracer.observe (.leave name depth) }) released
      rw [bind_of_ok left]
      exact handed calls outer _ carried

/-- One step keeps the account of the calls and their frames. -/
theorem Accounted.step (nests : l.Nests) {c : Configuration ω} (h : c.Accounted l calls) :
    (c.step l).Accounted l (c.follow l calls) := by
  obtain ⟨frames, suits, carried⟩ := h
  cases c with
  | halted r => exact ⟨frames, suits, carried⟩
  | unwinding f stack depth m =>
    cases stack with
    | empty => exact ⟨frames, trivial, carried⟩
    | resume next rest => exact ⟨frames, suits.2, carried⟩
    | leave name frame rest => exact accounted_leave frames suits carried fun m => .inr ⟨f.leaving name, rfl⟩
  | running p stack depth m =>
    obtain ⟨ready, waiting⟩ := suits
    cases ready with
    | @enter name a body next nested more =>
      have runs : (Task.body (some a) body).plan.Suits l (some a) := Task.suits_plan nests ⟨rfl, nested⟩
      exact accounted_running (.leave name (some a) (.resume next stack)) frames runs
        ⟨more, waiting⟩ carried
    | suits hp =>
      have frames : calls.map ActiveCall.frame = stack.frames := by
        rw [frames]
        show p.entering ++ stack.frames = stack.frames
        rw [hp.entering]
        rfl
      cases hp with
      | done a =>
        cases stack with
        | empty => exact ⟨frames, trivial, carried⟩
        | resume next rest => exact accounted_running rest frames (waiting.1 a) waiting.2 carried
        | leave name frame rest => exact accounted_leave frames waiting carried fun m => .inl ⟨a, rfl⟩
      | @ask β r next suits more =>
        exact accounted_ask suits more frames waiting carried
      | recur suits more =>
        exact accounted_running (.resume _ stack) frames (Task.suits_plan nests suits)
          ⟨more, waiting⟩ carried
      | call unmarked nested more => exact accounted_newFrame unmarked nested more frames waiting carried
      | native more =>
        exact accounted_running (.leave _ none (.resume _ stack)) frames
          (Task.suits_plan (t := .native ..) nests trivial) ⟨more, waiting⟩ carried

/-- The account stays right through all of a run. -/
theorem Accounted.iterate (nests : l.Nests) {c : Configuration ω} (h : c.Accounted l []) (n : Nat) :
    ((Configuration.step l)^[n] c).Accounted l (c.activeCalls l n) := by
  induction n with
  | zero => exact h
  | succ n ih =>
    rw [Function.iterate_succ_apply']
    exact ih.step nests

end Configuration

end Scriptlet
