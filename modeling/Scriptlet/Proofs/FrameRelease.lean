import Scriptlet.Proofs.Frames.Runs
import Scriptlet.Proofs.Tracing.Entries
import Scriptlet.Proofs.Watch.Session

/-!
# No frame is left behind

The frame of a call goes when the call is left, unless a function was made in it, which may outlive the call. So
while code runs, the frames that are not marked as captured are those of the calls that are open and in which no
function has been made so far, and between two requests of the host there are none.
-/

namespace Scriptlet

open Budget (Meter)
open Code (Draft Expr Need)
open Scriptlet.Configuration (start)
open Trace (Tracer)

/-! ## Functions and where they are made -/

theorem Library.makes_of_allowed {l : Library} {word : String → Prop} {n : Nat} {need : Need}
    (h : Code.Allowed l.functions word n need) : l.Makes (decide (0 < n)) need := by
  cases need with
  | make id defaults =>
    obtain ⟨f, found, -, nested⟩ := h
    exact ⟨f, by simp only [Library.function, found], nested⟩
  | _ => trivial

/-- Code of the module level makes functions that are not nested. -/
theorem Library.makes_of_resolved {l : Library} {d d' : Draft} {needs : List Need}
    {new : List Code.Function} (hr : Code.Resolved d 0 needs new d') (hl : l.functions = d'.functions) :
    ∀ need ∈ needs, l.Makes false need := by
  intro need hneed
  have allowed := hr.allowed need hneed
  rw [← hl] at allowed
  exact makes_of_allowed (n := 0) allowed

/-- In a sound draft the functions that bodies make are nested. -/
theorem Library.nests_of_sound {l : Library} {d : Draft} (sound : d.Sound) (hl : l.functions = d.functions) :
    l.Nests := by
  intro id f found need hneed
  simp only [Library.function] at found
  split at found
  · rename_i g hg
    cases found
    rw [hl] at hg
    obtain ⟨n, defined⟩ := sound.defined id.index (Array.getElem?_eq_some_iff.1 hg).1
    obtain ⟨hg', -, -, -, -, needs, -⟩ := defined
    obtain rfl := Option.some.inj (hg.symm.trans hg')
    have allowed := needs need hneed
    rw [← hl] at allowed
    have makes := makes_of_allowed allowed
    rwa [decide_eq_true (Nat.succ_pos n)] at makes
  · cases found

/-! ## Entries -/

/-- Evaluates an expression for the host. -/
def Plan.evalEntry (code : Expr) : Plan Answer := do
  let v ← run (.eval none code)
  let o ← request (.unfold v)
  return .object o

/-- The start of the run that answers a request, and the library that it runs with. There is none if the host asks
for something that is refused before any code runs, and for requests that run no code. -/
def Module.answering? (m : Module) : Step → Option (Library × Configuration Answer)
  | .eval e =>
    match m.resolve (·.resolveExpr e) with
    | (.error _, _) => none
    | (.ok code, m) => some (m.library, .start (.evalEntry code) ⟨m.store, m.globals, .silent⟩)
  | s => m.start? s

theorem Plan.outcome_evalEntry (l : Library) (code : Expr) (m : Machine) :
    (evalEntry code).outcome l m.depthLimit 0 m =
      (do let o ← (do let v ← Run.evalTop l code; Run.inspect (v.unfold l)); return .object o :
        Run Answer) m := by
  have evaluated : (Task.eval none code).outcome l m.depthLimit 0 m = Run.evalTop l code m := rfl
  rw [evalEntry, outcome_bind, outcome_run, bind_assoc]
  exact bind_congr_of_eq evaluated _

theorem Plan.permitted_evalEntry (l : Library) (code : Expr) (limit : Nat) :
    (evalEntry code).EachCall l limit 0 fun j => j.depth ≤ limit :=
  (EachCall.run (Nat.zero_le limit)).bind fun _ => (EachCall.request _).bind fun _ => .pure _

namespace Module

/-- The run that answers a request. Its library and its plan are in order and its heap has no frame that is not
marked. It halts with the reply and with the heap that the module has then, up to a collection. -/
structure Answered (m : Module) (s : Step) (l : Library) (c : Configuration Answer) : Prop where
  nests : l.Nests
  accounted : c.Accounted l []
  halts : ∃ n r, (Configuration.step l)^[n] c = .halted r ∧ (m.step s).1 = .ofResult r ∧
    ∃ m₁ : Module, m₁.heap = (Configuration.halted r).machine.store.heap ∧ (m.step s).2 = m₁.collectIfDue

theorem after_reply_enter {α : Type} (m : Module) (tracer : Tracer) (x : Library → Run α) (f : α → Answer) :
    ∃ m₁ : Module,
      m₁.heap = (Configuration.halted ((do let a ← x m.library; return f a : Run Answer)
        ⟨m.store, m.globals, tracer⟩)).machine.store.heap ∧
      (reply f (m.enter tracer x)).2 = m₁.collectIfDue := by
  obtain ⟨name, library, store, globals⟩ := m
  simp only [reply, enter]
  cases ran : x library ⟨store, globals, tracer⟩ with
  | ok a machine =>
    rw [bind_of_ok ran]
    exact ⟨⟨name, library, machine.store, machine.globals⟩, rfl, rfl⟩
  | error e machine =>
    rw [bind_of_error ran]
    exact ⟨⟨name, library, machine.store, machine.globals⟩, rfl, rfl⟩

/-- Entering a module with a plan that does what the request asks for. -/
theorem answered_of_enter {m : Module} (m' : Module) {s : Step} {α : Type} {tracer : Tracer} {x : Library → Run α}
    {f : α → Answer} {p : Plan Answer} (steps : m.step s = reply f (m'.enter tracer x))
    (outcome : p.outcome m'.library m'.heap.meter.depthLimit 0 ⟨m'.store, m'.globals, tracer⟩ =
      (do let a ← x m'.library; return f a : Run Answer) ⟨m'.store, m'.globals, tracer⟩)
    (permitted : p.EachCall m'.library m'.heap.meter.depthLimit 0 fun j => j.depth ≤ m'.heap.meter.depthLimit)
    (nests : m'.library.Nests) (suits : p.Suits m'.library none) (carried : m'.heap.Carries []) :
    m.Answered s m'.library (start p ⟨m'.store, m'.globals, tracer⟩) where
  nests := nests
  accounted := Configuration.accounted_start suits carried
  halts := by
    obtain ⟨n, halts⟩ := Plan.halts (m := ⟨m'.store, m'.globals, tracer⟩) p permitted
    refine ⟨n, _, halts, ?_, ?_⟩
    · rw [steps]
      exact (reply_enter m' tracer x f).trans (congrArg Reply.ofResult outcome.symm)
    · rw [steps]
      have after := after_reply_enter m' tracer x f
      rwa [← outcome] at after

theorem keepsFrames_buildArgs (positional : List Object) (keywords : List (String × Object)) :
    Along (Store.Via Heap.SameFrames) (buildArgs positional keywords) :=
  (composed_buildArgs positional keywords).along fun h => h.along Heap.Plain.keepsFrames

theorem sameFrames_set (m : Module) (x : String) (o : Object) : m.heap.SameFrames (m.step (.set x o)).2.heap := by
  obtain ⟨name, library, store, globals⟩ := m
  have composed : Composed (Store.Over Heap.Plain) (do let v ← o.build; Store.learn x; return v) :=
    (o.composed_buildWithin _).bind fun v => (Store.composed_learn x).bind fun _ => .pure v
  have built := composed.along (fun h => h.along Heap.Plain.keepsFrames) store
  simp only [step, set]
  generalize (do let v ← o.build; Store.learn x; return v : StoreM Value) store = r at built ⊢
  cases built with
  | error same => exact same
  | ok same =>
    simp only
    split <;> exact same

variable {m : Module} {H : History}

theorem answered_exec (carried : m.heap.Carries []) {program : List Program.Stmt} {code : List Code.Stmt}
    {d : Draft} {new : List Code.Function} (tracer : Tracer)
    (resolved : Draft.resolveProgram ⟨m.store.lexicon, m.library.functions⟩ program = (.ok code, d)) (sound : d.Sound)
    (hr : Code.Resolved ⟨m.store.lexicon, m.library.functions⟩ 0 (Code.blockNeeds code) new d) :
    m.Answered (.exec tracer program) (m.withDraft d).library
      (start (.execEntry code) ⟨(m.withDraft d).store, (m.withDraft d).globals, tracer⟩) := by
  have steps : m.step (.exec tracer program) =
      reply (fun _ => .done) ((m.withDraft d).enter tracer fun l => Run.execTop l code) := by
    simp only [step, exec, resolve_eq, resolved]
  have needs := Library.makes_of_resolved (l := (m.withDraft d).library) hr rfl
  exact answered_of_enter (m.withDraft d) steps
    (Plan.outcome_execEntry (m.withDraft d).library code ⟨(m.withDraft d).store, m.globals, tracer⟩)
    (Plan.permitted_execEntry _ code _) (Library.nests_of_sound sound rfl)
    (Plan.Suits.run_bind ⟨rfl, needs⟩ fun _ => .pure _) carried

theorem answered_eval (carried : m.heap.Carries []) {e : Program.Expr} {code : Expr} {d : Draft}
    {new : List Code.Function} (resolved : Draft.resolveExpr ⟨m.store.lexicon, m.library.functions⟩ e = (.ok code, d))
    (sound : d.Sound) (hr : Code.Resolved ⟨m.store.lexicon, m.library.functions⟩ 0 code.needs new d) :
    m.Answered (.eval e) (m.withDraft d).library
      (start (.evalEntry code) ⟨(m.withDraft d).store, (m.withDraft d).globals, .silent⟩) := by
  have steps : m.step (.eval e) = reply .object ((m.withDraft d).enter .silent fun l => do
      let v ← Run.evalTop l code
      Run.inspect (v.unfold l)) := by
    simp only [step, eval, resolve_eq, resolved]
  have needs := Library.makes_of_resolved (l := (m.withDraft d).library) hr rfl
  exact answered_of_enter (m.withDraft d) steps
    (Plan.outcome_evalEntry (m.withDraft d).library code ⟨(m.withDraft d).store, m.globals, .silent⟩)
    (Plan.permitted_evalEntry _ code _) (Library.nests_of_sound sound rfl)
    (Plan.Suits.run_bind ⟨rfl, needs⟩ fun _ => Plan.Suits.request_bind trivial fun _ => .pure _) carried

theorem answered_call (h : m.Tracked H) (carried : m.heap.Carries []) {name : String} {callee : Value}
    {positional : List Object} {keywords : List (String × Object)} {args : Call.Args} {store : Store}
    (tracer : Tracer) (found : m.globals.lookup m.library name = .ok callee)
    (built : buildArgs positional keywords m.store = .ok args store) :
    m.Answered (.call tracer name positional keywords) m.library
      (start (.callEntry callee args) ⟨store, m.globals, tracer⟩) := by
  have kept := keepsFrames_buildArgs positional keywords m.store
  rw [built] at kept
  cases kept with
  | ok same =>
    have steps : m.step (.call tracer name positional keywords) =
        reply .object (Module.enter { m with store } tracer fun l => do
          let v ← Run.call l callee args
          Run.inspect (v.unfold l)) := by
      simp only [step, call, found, built]
    exact answered_of_enter { m with store } steps
      (Plan.outcome_callEntry m.library callee args ⟨store, m.globals, tracer⟩)
      (Plan.permitted_callEntry _ callee args _) (Library.nests_of_sound h.draft rfl)
      (Plan.Suits.run_bind trivial fun _ => Plan.Suits.request_bind trivial fun _ => .pure _)
      (carried.of_same same)

/-- A module in order, with no frame on its heap that is not marked, answers a request by such a run if it runs any
code at all. -/
theorem Tracked.answered (h : m.Tracked H) (carried : m.heap.Carries []) {s : Step} {l : Library}
    {c : Configuration Answer} (entry : m.answering? s = some (l, c)) : m.Answered s l c := by
  cases s with
  | exec tracer program =>
    simp only [answering?, start?, resolve_eq] at entry
    obtain ⟨code, d, new, resolved, sound, hr⟩ | ⟨e, d, refused, -⟩ :=
      Draft.resolveProgram_cases h.draft program
    · rw [resolved] at entry
      cases entry
      exact answered_exec carried tracer resolved sound hr
    · rw [refused] at entry
      cases entry
  | eval e =>
    simp only [answering?, resolve_eq] at entry
    obtain ⟨code, d, new, resolved, sound, hr⟩ | ⟨e, d, refused, -⟩ := Draft.resolveExpr_cases h.draft e
    · rw [resolved] at entry
      cases entry
      exact answered_eval carried resolved sound hr
    · rw [refused] at entry
      cases entry
  | call tracer name positional keywords =>
    simp only [answering?, start?] at entry
    split at entry
    · cases entry
    · rename_i callee found
      split at entry
      · cases entry
      · rename_i args store built
        cases entry
        exact answered_call h carried tracer found built
  | _ => cases entry

theorem carries_collectIfDue (carried : m.heap.Carries []) : m.collectIfDue.heap.Carries [] := by
  unfold collectIfDue
  split
  · exact carried.collect _
  · exact carried

/-- After its run a request has left no frame on the heap that is not marked. -/
theorem Answered.carries {s : Step} {l : Library} {c : Configuration Answer} (h : m.Answered s l c) :
    (m.step s).2.heap.Carries [] := by
  obtain ⟨n, r, halts, -, m₁, heap, after⟩ := h.halts
  have accounted := h.accounted.iterate h.nests n
  rw [halts] at accounted
  have carried := accounted.carries
  rw [List.map_eq_nil_iff.1 accounted.frames_eq, ← heap] at carried
  rw [after]
  exact carries_collectIfDue carried

/-- One request leaves no frame on the heap that is not marked. -/
theorem Tracked.carries_step (h : m.Tracked H) (carried : m.heap.Carries []) (s : Step) :
    (m.step s).2.heap.Carries [] := by
  cases entry : m.answering? s with
  | some start =>
    obtain ⟨l, c⟩ := start
    exact (h.answered carried entry).carries
  | none =>
    cases s with
    | exec tracer program =>
      simp only [answering?, start?] at entry
      split at entry
      · rename_i defect m' refused
        have same := m.heap_resolve (·.resolveProgram program)
        simp only [step, reply, exec, refused] at same ⊢
        rw [same]
        exact carried
      · cases entry
    | eval e =>
      simp only [answering?] at entry
      split at entry
      · rename_i defect m' refused
        have same := m.heap_resolve (·.resolveExpr e)
        simp only [step, reply, eval, refused] at same ⊢
        rw [same]
        exact carried
      · cases entry
    | call tracer name positional keywords =>
      simp only [answering?, start?] at entry
      split at entry
      · rename_i e unbound
        simp only [step, reply, call, unbound]
        exact carried
      · rename_i callee found
        have kept := keepsFrames_buildArgs positional keywords m.store
        split at entry
        · rename_i e store failed
          rw [failed] at kept
          cases kept with
          | error same =>
            simp only [step, reply, call, found, failed]
            exact carried.of_same same
        · cases entry
    | set x o => exact carried.of_same (m.sameFrames_set x o)
    | freeze => exact carried.of_same (m.heap.sameFrames_freezeFrom m.globals.roots)
    | collect => exact carried.collect m.globals.roots
    | _ => exact carried

theorem carries_create (name : String) (meter : Meter) : (create name meter).heap.Carries [] where
  tidy := Heap.tidy_empty meter
  distinct := List.nodup_nil
  present c hc := (List.not_mem_nil hc).elim
  complete a ha := by
    obtain ⟨f, hf, -⟩ := Heap.captured?_eq_some.1 ha
    simp [create, heap, Heap.cell?, Heap.empty] at hf

/-- No sequence of requests leaves a frame on the heap that is not marked. -/
theorem Tracked.carries_run (h : m.Tracked H) (carried : m.heap.Carries []) (steps : List Step) :
    (m.run steps).2.heap.Carries [] := by
  induction steps generalizing m H with
  | nil => exact carried
  | cons s steps ih => exact ih (stepWatched_right h s).tracked (h.carries_step carried s)

end Module

/-- Whatever a host has asked of a module, all frames on its heap are marked as captured. While the module answers
the next request, at every step of the run, the frames that are not marked are those of the calls of functions that
are open and in which no `def` and no `lambda` has run yet. -/
theorem frames_released (name : String) (meter : Meter) (steps : List Step) :
    (∀ a, ¬ ((Module.create name meter).run steps).2.heap.Uncaptured a) ∧
      ∀ s l c, ((Module.create name meter).run steps).2.answering? s = some (l, c) →
        (∃ n r, (Configuration.step l)^[n] c = .halted r ∧
          (((Module.create name meter).run steps).2.step s).1 = .ofResult r) ∧
        ∀ n, (c.activeCalls l n).map ActiveCall.frame = ((Configuration.step l)^[n] c).frames ∧
          ((c.activeCalls l n).map ActiveCall.frame).Nodup ∧
          ∀ a, ((Configuration.step l)^[n] c).machine.store.heap.Uncaptured a ↔
            ⟨a, false⟩ ∈ c.activeCalls l n := by
  have created := Module.tracked_create name meter
  have carried := created.carries_run (Module.carries_create name meter) steps
  obtain ⟨H, tracked⟩ := (Module.session_right created steps).tracked
  refine ⟨fun a unmarked => List.not_mem_nil (carried.uncaptured_iff_mem.1 unmarked), fun s l c entry => ?_⟩
  have answered := tracked.answered carried entry
  refine ⟨?_, fun n => ?_⟩
  · obtain ⟨n, r, halts, replied, -⟩ := answered.halts
    exact ⟨n, r, halts, replied⟩
  · have accounted := answered.accounted.iterate answered.nests n
    exact ⟨accounted.frames_eq, accounted.carries.distinct,
      fun a => accounted.carries.uncaptured_iff_mem⟩

/-- A function that makes another one and calls it. -/
def innerCall : List Program.Stmt :=
  [.define "outer" [] [.define "inner" [] [.pass], .giveBack (some (.call (.name "inner") []))],
    .expr (.call (.name "outer") [])]

theorem frames_released_innerCall :
    ∃ l c, (Module.create "m" (.depthOnly none)).answering? (.exec .silent innerCall) = some (l, c) ∧
      ((Configuration.step l)^[44] c).frames = [⟨3⟩, ⟨1⟩] ∧
      ((Configuration.step l)^[44] c).machine.store.heap.Uncaptured ⟨3⟩ ∧
      ¬ ((Configuration.step l)^[44] c).machine.store.heap.Uncaptured ⟨1⟩ := by
  have followed : ((Module.create "m" (.depthOnly none)).answering? (.exec .silent innerCall)).map
      (fun run => run.2.activeCalls run.1 44) = some [⟨⟨3⟩, false⟩, ⟨⟨1⟩, true⟩] := by
    decide +kernel
  obtain ⟨⟨l, c⟩, starts, calls⟩ := Option.map_eq_some_iff.1 followed
  obtain ⟨frames, -, uncaptured⟩ := ((frames_released "m" (.depthOnly none) []).2 _ l c starts).2 44
  have calls : c.activeCalls l 44 = [⟨⟨3⟩, false⟩, ⟨⟨1⟩, true⟩] := calls
  rw [calls] at frames uncaptured
  refine ⟨l, c, starts, frames.symm, (uncaptured ⟨3⟩).2 (by decide), fun marked => ?_⟩
  exact absurd ((uncaptured ⟨1⟩).1 marked) (by decide)

end Scriptlet
