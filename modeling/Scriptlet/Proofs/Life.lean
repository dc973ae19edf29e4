import Scriptlet.Proofs.Lockstep
import Scriptlet.Proofs.Stepping.Requests

/-!
# The life of a module

What a host asks of a module either leaves the heap alone or sends the machine on an errand, and the chronicle of the
errand is the history of the request. It tells of a run that is answered just as the request is, leads from the heap
before the request to the heap after it, and has all that the tracer of the request was told. The life of a module
strings the chronicles of its requests together.
-/

namespace Scriptlet

open Budget (Meter)
open Heap (Chain Change)
open Trace (Tracer)

namespace Module

variable {α : Type} {m m' : Module} {s : Step}

/-! ## Errands of requests -/

/-- A run that collects does what a module does that collects. -/
theorem exists_collectIfDue (name : String) (library : Library) (store : Store) (globals : Globals) (tracer : Tracer) :
    ∃ store', collectIfDue ⟨name, library, store, globals⟩ = ⟨name, library, store', globals⟩ ∧
      Run.collectIfDue ⟨store, globals, tracer⟩ = .ok () ⟨store', globals, tracer⟩ := by
  by_cases due : store.heap.collectionDue
  · exact ⟨⟨(store.heap.collect globals.roots).2, store.lexicon⟩, if_pos due,
      by simp only [Run.collectIfDue, if_pos due]⟩
  · exact ⟨store, if_neg due, by simp only [Run.collectIfDue, if_neg due]⟩

/-- The reply to an entry is that to a run which collects at its end. -/
theorem reply_enter_eq (m : Module) (f : α → Answer) (tracer : Tracer) (x : Library → Run α) {y : Run α}
    (h : x m.library (m.machine tracer) = y (m.machine tracer)) :
    reply f (m.enter tracer x) =
      m.replyTo (Run.settling Run.collectIfDue (do return f (← y)) (m.machine tracer)) := by
  obtain ⟨name, library, store, globals⟩ := m
  show _ = replyTo _ (EStateM.bind (Run.caught (EStateM.bind y _)) _ ⟨store, globals, tracer⟩)
  simp only [machine] at h
  simp only [enter, EStateM.bind, Run.caught, ← h]
  cases x library ⟨store, globals, tracer⟩ with
  | ok a s =>
    obtain ⟨store, globals, tracer⟩ := s
    obtain ⟨store', same, collected⟩ := exists_collectIfDue name library store globals tracer
    simp only [same, reply]
    show _ = replyTo _ (EStateM.bind Run.collectIfDue _ ⟨store, globals, tracer⟩)
    rw [EStateM.bind, collected]
    rfl
  | error e s =>
    obtain ⟨store, globals, tracer⟩ := s
    obtain ⟨store', same, collected⟩ := exists_collectIfDue name library store globals tracer
    simp only [same, reply]
    show _ = replyTo _ (EStateM.bind Run.collectIfDue _ ⟨store, globals, tracer⟩)
    rw [EStateM.bind, collected]
    rfl

theorem reply_call (m : Module) (tracer : Tracer) (callee : Value) (positional : List Object)
    (keywords : List (String × Object)) :
    reply .object (match buildArgs positional keywords m.store with
      | .error e store => ⟨.error e, tracer, { m with store }⟩
      | .ok args store => Module.enter { m with store } tracer fun l => do
        let v ← Run.call l callee args
        Run.inspect (v.unfold l)) =
      m.replyTo ((Errand.call callee positional keywords).run m.library m.depthLimit (m.machine tracer)) := by
  obtain ⟨name, library, store, globals⟩ := m
  have kept := (composed_buildArgs positional keywords).along Store.Primitive.along_sameLimit store
  show _ = replyTo _ (EStateM.bind (Run.onStore (buildArgs positional keywords)) _ ⟨store, globals, tracer⟩)
  simp only [EStateM.bind, Run.onStore]
  generalize buildArgs positional keywords store = r at kept ⊢
  cases kept with
  | error _ => rfl
  | @ok args store' same =>
    have same : store'.heap.meter.depthLimit = store.heap.meter.depthLimit := same
    simp only
    rw [reply_enter_eq (y := do
      let v ← Run.callWithin library store.heap.meter.depthLimit store.heap.meter.depthLimit callee args
      Run.inspect (v.unfold library)) _ _ _ _ (by rw [← same]; rfl), bind_assoc]
    rfl

theorem step_set (m : Module) (x : String) (o : Object) :
    m.step (.set x o) = m.replyTo ((Errand.set x o).run m.library m.depthLimit (m.machine .silent)) := by
  obtain ⟨name, library, store, globals⟩ := m
  show _ = replyTo _ (EStateM.bind (Run.onStore o.build) _ ⟨store, globals, .silent⟩)
  simp only [step, set, bind, EStateM.bind, Run.onStore]
  cases o.build store with
  | error e store' => rfl
  | ok v store' =>
    simp only [Store.learn, Run.storeGlobal]
    by_cases frozen : globals.frozen
    · simp only [if_pos frozen]
      rfl
    · simp only [if_neg frozen]
      rfl

/-- A request either sends the machine on an errand, whose end decides the reply, or it leaves the heap as it is and
tells the tracer nothing. -/
theorem step_cases (m : Module) (s : Step) :
    (∃ e m', m.errand? s = some (e, m') ∧ m'.heap = m.heap ∧ m'.library.natives = m.library.natives ∧
      m.step s = m'.replyTo (e.run m'.library m'.depthLimit (m'.machine s.tracer))) ∨
    m.errand? s = none ∧ (m.step s).2.heap = m.heap ∧ (m.step s).1.tracer = s.tracer := by
  cases s with
  | exec tracer program =>
    obtain ⟨name, ⟨functions, natives, builtins, methods⟩, ⟨heap, lexicon⟩, globals⟩ := m
    simp only [errand?, step, exec, resolve]
    generalize Code.Draft.resolveProgram ⟨lexicon, functions⟩ program = resolved
    obtain ⟨defect | code, lexicon, functions⟩ := resolved
    · exact .inr ⟨rfl, rfl, rfl⟩
    · exact .inl ⟨_, _, rfl, rfl, rfl, reply_enter_eq _ (fun _ => .done) tracer _ rfl⟩
  | eval e =>
    obtain ⟨name, ⟨functions, natives, builtins, methods⟩, ⟨heap, lexicon⟩, globals⟩ := m
    simp only [errand?, step, eval, resolve]
    generalize Code.Draft.resolveExpr ⟨lexicon, functions⟩ e = resolved
    obtain ⟨defect | code, lexicon, functions⟩ := resolved
    · exact .inr ⟨rfl, rfl, rfl⟩
    · refine .inl ⟨_, _, rfl, rfl, rfl, ?_⟩
      rw [reply_enter_eq (y := do
        let v ← (Run.topLevel _ heap.meter.depthLimit).engine.eval code
        Run.inspect (v.unfold _)) _ _ _ _ rfl, bind_assoc]
      rfl
  | call tracer x positional keywords =>
    simp only [errand?, step, call]
    cases m.globals.lookup m.library x with
    | error e => exact .inr ⟨rfl, rfl, rfl⟩
    | ok callee => exact .inl ⟨_, _, rfl, rfl, rfl, m.reply_call tracer callee positional keywords⟩
  | set x o => exact .inl ⟨_, _, rfl, rfl, rfl, m.step_set x o⟩
  | freeze => exact .inl ⟨_, _, rfl, rfl, rfl, rfl⟩
  | collect => exact .inl ⟨_, _, rfl, rfl, rfl, rfl⟩
  | _ => exact .inr ⟨rfl, rfl, rfl⟩

/-! ## Chronicles of requests -/

/-- The chronicle of a request tells of a run that ends with the reply to the request. It leads from the heap before
the request to the heap after it and has what the tracer was told, and no call of it is entered beyond the limit. -/
theorem recounts_step (m : Module) (s : Step) :
    (m.stepChronicled s).1 = m.step s ∧ m.heap.Chain (m.stepChronicled s).2 (m.step s).2.heap ∧
      (m.step s).1.tracer = s.tracer.observeAll (Heap.told (m.stepChronicled s).2) ∧
      ∀ x ∈ (m.stepChronicled s).2, x.what.EntersWithin m.depthLimit := by
  unfold stepChronicled
  obtain ⟨e, m', sent, heap, -, ran⟩ | ⟨sent, heap, tracer⟩ := m.step_cases s
  · have lockstep := e.lockstep .same m'.library m'.depthLimit 0 (by simp)
    have recounts := lockstep.recounts ⟨m'.machine s.tracer, []⟩
    have ends := lockstep.ends (w := ⟨m'.machine s.tracer, []⟩) (Coupling.machines_same.2 rfl)
    rw [depthLimit, sent, ran, ← heap]
    simp only [Nat.add_zero, depthLimit] at recounts ends ⊢
    generalize e.chronicled m'.library m'.heap.meter.depthLimit ⟨m'.machine s.tracer, []⟩ = r at recounts ends ⊢
    generalize e.run m'.library m'.heap.meter.depthLimit (m'.machine s.tracer) = q at ends ⊢
    cases ends with
    | ok h =>
      cases Coupling.machines_same.1 h
      cases recounts with
      | ok h =>
        obtain ⟨path, past, chain, told, within⟩ := h
        rw [chronicle, past]
        exact ⟨rfl, chain, told, within⟩
    | error h =>
      cases Coupling.machines_same.1 h
      cases recounts with
      | error h =>
        obtain ⟨path, past, chain, told, within⟩ := h
        rw [chronicle, past]
        exact ⟨rfl, chain, told, within⟩
    | partOk parts => exact parts.elim
    | partError parts => exact parts.elim
  · rw [sent, heap]
    exact ⟨rfl, .start, tracer, by simp⟩

/-- The changes are those of a session from this module on: each request has made a part of them, and its tracer was
told the events of this part. -/
inductive Lives : Module → List Step → List Change → Prop where
  | nil (m : Module) : Lives m [] []
  | cons {m : Module} {s : Step} {steps : List Step} {now later : List Change}
      (chain : m.heap.Chain now (m.step s).2.heap)
      (told : (m.step s).1.tracer = s.tracer.observeAll (Heap.told now))
      (rest : Lives (m.step s).2 steps later) : Lives m (s :: steps) (now ++ later)

theorem Lives.chain {steps : List Step} {life : List Change} (h : m.Lives steps life) :
    m.heap.Chain life (m.run steps).2.heap := by
  induction h with
  | nil m => exact .start
  | cons chain told rest ih => exact chain.append ih

/-- The chronicle of a session tells of a run with the replies of the session, and it is a life of the module in which
no call is entered beyond the limit of the depth. -/
theorem recounts_run (ht : m.heap.Tidy) (steps : List Step) :
    (m.runChronicled steps).1 = m.run steps ∧ m.Lives steps (m.runChronicled steps).2 ∧
      ∀ x ∈ (m.runChronicled steps).2, x.what.EntersWithin m.depthLimit := by
  induction steps generalizing m with
  | nil => exact ⟨rfl, .nil m, by simp [runChronicled]⟩
  | cons s steps ih =>
    obtain ⟨reply, chain, told, within⟩ := m.recounts_step s
    obtain ⟨replies, lives, within'⟩ := ih (chain.tidy ht)
    have same : (m.step s).2.depthLimit = m.depthLimit := Meter.depthLimit_of_reset (chain.reset ht)
    rw [same] at within'
    simp only [runChronicled, run, reply, replies]
    refine ⟨trivial, .cons chain told lives, fun x hx => ?_⟩
    obtain hx | hx := List.mem_append.1 hx
    · exact within x hx
    · exact within' x hx

end Module

end Scriptlet
