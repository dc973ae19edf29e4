import Scriptlet.Proofs.HostFailures
import Scriptlet.Proofs.Lockstep
import Scriptlet.Proofs.Stepping.Halting

/-!
# Refusals come to light

A limit that is met in a run is noted in its chronicle, and it raises an exception that says so. No code can go on after
an exception but that of a host function. So if the host functions hand such exceptions on, a run that was refused
something ends with a refusal.
-/

namespace Scriptlet

open Call (Args)
open Fault (Cause)
open Heap (Cell Change Refused)

/-- The exception says that a resource is exhausted, or that no more calls may be opened. -/
def Fault.Cause.IsRefusal (cause : Cause) : Prop :=
  cause.kind = .resourceExhausted ∨ ∃ limit depth, cause = .exhausted (.depth limit depth)

theorem Fault.Cause.isRefusal_exhausted (use : Budget.Exceeded) : (Cause.exhausted use).IsRefusal := by
  cases use with
  | depth limit depth => exact .inr ⟨limit, depth, rfl⟩
  | _ => exact .inl rfl

/-- The failure is a refusal, or something in the tables is broken. -/
def Failure.IsRefusal : Failure → Prop
  | .raised e => e.cause.IsRefusal
  | .broken .. => True

theorem Failure.IsRefusal.leaving {f : Failure} (h : f.IsRefusal) (name : String) : (f.leaving name).IsRefusal := by
  cases f <;> exact h

/-! ## Runs that report refusals -/

/-- Nothing was refused from the first state to the second. -/
def Chronicle.Allows (w w' : Chronicle) : Prop := Refused w'.past → Refused w.past

instance : IsPreorder Chronicle Chronicle.Allows where
  refl _ := id
  trans _ _ _ first second := first ∘ second

/-- A chronicled computation has ended, and if something was refused, it has failed with a refusal. -/
inductive Reports.Ends {α : Type} (w : Chronicle) : EStateM.Result Failure Chronicle α → Prop where
  | ok {a : α} {w' : Chronicle} (h : w.Allows w') : Ends w (.ok a w')
  | error {f : Failure} {w' : Chronicle} (h : f.IsRefusal ∨ w.Allows w') : Ends w (.error f w')

/-- All runs of the computation end so. -/
def Reports {α : Type} (x : Chronicled α) : Prop := ∀ w, Reports.Ends w (x w)

namespace Reports

variable {α β : Type}

theorem Ends.from_rel {w w₁ : Chronicle} {r : EStateM.Result Failure Chronicle α} (h : w.Allows w₁)
    (hr : Ends w₁ r) : Ends w r := by
  cases hr with
  | ok h' => exact .ok (h ∘ h')
  | error h' => exact .error (h'.imp_right (h ∘ ·))

theorem of_along {x : Chronicled α} (h : Along Chronicle.Allows x) : Reports x := by
  intro w
  have ends := h w
  generalize x w = r at ends ⊢
  cases ends with
  | ok h => exact .ok h
  | error h => exact .error (.inr h)

/-- A failure ends the composition, so nothing goes on after a refusal. -/
theorem bind {x : Chronicled α} {g : α → Chronicled β} (hx : Reports x) (hg : ∀ a, Reports (g a)) :
    Reports (x >>= g) := by
  intro w
  have first := hx w
  show Ends w (EStateM.bind x g w)
  unfold EStateM.bind
  generalize x w = r at first ⊢
  cases first with
  | ok h => exact (hg _ _).from_rel h
  | error h => exact .error h

theorem congruence : Congruence fun _ (x : Chronicled _) (_ : Run _) => Reports x :=
  ⟨fun a => of_along (.pure a), fun cause => of_along (.raise cause), bind⟩

/-- Cleaning up after a computation hides no refusal if it fails only with refusals. -/
theorem settled {x : Chronicled α} {after : Chronicled Unit} {f : Failure → Failure}
    (keeps : ∀ {e : Failure}, e.IsRefusal → (f e).IsRefusal) (hx : Reports x) (quiet : Along Chronicle.Allows after)
    (solid : ∀ w e w', after w = .error e w' → e.IsRefusal) :
    Reports (do let r ← Run.caught x; after; Run.finish f r) := by
  intro w
  have first := hx w
  show Ends w (EStateM.bind (Run.caught x) (fun r => EStateM.bind after fun _ => Run.finish f r) w)
  simp only [EStateM.bind, Run.caught]
  generalize x w = r at first ⊢
  cases first with
  | @ok a w' h => exact (of_along (quiet.bind fun _ => .finish f (.ok a)) w').from_rel h
  | @error e w' h =>
    have second := quiet w'
    simp only
    cases ran : after w' with
    | ok _ w'' =>
      rw [ran] at second
      cases second with
      | ok h' => exact .error (h.imp keeps (· ∘ h'))
    | error e' w'' => exact .error (.inl (solid _ _ _ ran))

end Reports

/-! ## Operations -/

namespace Chronicled

variable {α : Type}

theorem allows_concat {m m' : Machine} {past : List Change} {x : Change} (h : x.what.isRefusal = false) :
    Chronicle.Allows ⟨m, past⟩ ⟨m', past ++ [x]⟩ := by
  rintro ⟨y, hy, refusal⟩
  obtain hy | hy := List.mem_append.1 hy
  · exact ⟨y, hy, refusal⟩
  · rw [List.mem_singleton.1 hy, h] at refusal
    cases refusal

theorem allows_onMachine (x : Run α) : Along Chronicle.Allows (onMachine x) := by
  rintro ⟨m, past⟩
  simp only [onMachine]
  cases x m with
  | ok a m' => exact .ok id
  | error e m' => exact .error id

theorem allows_noting (x : Run α) {what : Except Failure α → Happening} (h : ∀ r, (what r).isRefusal = false) :
    Along Chronicle.Allows (noting x what) := by
  rintro ⟨m, past⟩
  simp only [noting]
  cases x m with
  | ok a m' => exact .ok (allows_concat (h _))
  | error e m' => exact .error (allows_concat (h _))

theorem reports_noting {x : Run α} {what : Except Failure α → Happening} (ok : ∀ a, (what (.ok a)).isRefusal = false)
    (solid : ∀ {m e m'}, x m = .error e m' → e.IsRefusal) : Reports (noting x what) := by
  rintro ⟨m, past⟩
  simp only [noting]
  cases ran : x m with
  | ok a m' => exact .ok (allows_concat (ok a))
  | error e m' => exact .error (.inl (solid ran))

/-- Objects, statements and calls are all that can be refused. -/
theorem reports_allocate (c : Cell) : Reports (allocate c) := by
  refine reports_noting (fun _ => rfl) ?_
  rintro ⟨⟨⟨slots, free, meter, sinceCollection⟩, lexicon⟩, globals, tracer⟩ e m' ran
  simp only [Run.onStore, Store.onHeap, Heap.allocate] at ran
  cases charged : meter.charge c.size with
  | error use =>
    rw [charged] at ran
    cases ran
    exact Cause.isRefusal_exhausted use
  | ok meter =>
    simp only [charged, Heap.place] at ran
    cases free with
    | nil => cases ran
    | cons a free =>
      by_cases hi : a.index < slots.size
      · simp only [if_pos hi] at ran
        cases ran
      · simp only [if_neg hi] at ran
        cases ran
        exact trivial

theorem reports_begin (kind : Trace.StatementKind) (depth : Nat) : Reports (begin kind depth) := by
  refine reports_noting (fun _ => rfl) ?_
  rintro ⟨⟨⟨slots, free, meter, sinceCollection⟩, lexicon⟩, globals, tracer⟩ e m' ran
  replace ran : EStateM.bind _ _ _ = _ := ran
  simp only [EStateM.bind, Run.onStore, Store.onHeap, Run.tick] at ran
  generalize meter.tick = ticked at ran
  obtain ⟨_ | use, meter'⟩ := ticked
  · cases ran
  · cases ran
    exact Cause.isRefusal_exhausted use

theorem reports_bar (limit : Nat) : Reports (bar limit : Chronicled α) := by
  rintro ⟨m, past⟩
  exact .error (.inl (Cause.isRefusal_exhausted _))

/-! ## Freed objects and calls -/

theorem allows_free (a : Address) : Along Chronicle.Allows (free a) := by
  rintro ⟨⟨⟨heap, lexicon⟩, globals, tracer⟩, past⟩
  simp only [free]
  cases heap.cell? a with
  | none => exact .ok id
  | some c => exact .ok (allows_concat rfl)

theorem allows_freeAll (dead : List Address) : Along Chronicle.Allows (freeAll dead) := by
  induction dead with
  | nil => exact .pure ()
  | cons a dead ih => exact (allows_free a).bind fun _ => ih

theorem allows_get : Along Chronicle.Allows (get : Chronicled Chronicle) := fun _ => .ok id

theorem allows_collect : Along Chronicle.Allows collect :=
  allows_get.bind fun _ => (allows_freeAll _).bind fun _ => (allows_noting _ fun _ => rfl).bind fun _ => .pure _

theorem allows_collectIfDue : Along Chronicle.Allows collectIfDue := by
  refine allows_get.bind fun _ => ?_
  split
  · exact allows_collect.bind fun _ => .pure ()
  · exact .pure ()

theorem allows_release (frame : Option Address) : Along Chronicle.Allows (release frame) := by
  cases frame with
  | none => exact .pure ()
  | some a =>
    refine (allows_onMachine _).bind fun ended => ?_
    split
    · exact allows_free a
    · exact .pure ()

/-- A chronicled run fails only with refusals if the run itself does. -/
theorem isRefusal_of_lockstep {limit : Nat} {x : Chronicled α} {y : Run α} (h : Lockstep .same limit α x y)
    (solid : ∀ {m e m'}, y m = .error e m' → e.IsRefusal) (w : Chronicle) (e : Failure) (w' : Chronicle)
    (ran : x w = .error e w') : e.IsRefusal := by
  have ends := h.ends (w := w) (Coupling.machines_same.2 rfl)
  rw [ran] at ends
  generalize same : y w.machine = q at ends
  cases ends with
  | error _ => exact solid same
  | partError parts => exact parts.elim

theorem reports_entered (name : String) (depth : Nat) (frame : Option Address) {x : Chronicled Value} (hx : Reports x) :
    Reports (entered name depth x (release frame)) := by
  refine (Reports.of_along (allows_noting _ fun _ => rfl)).bind fun _ => ?_
  rw [Run.guarded_eq]
  refine .settled (fun h => h.leaving name) hx ((allows_noting _ fun _ => rfl).bind fun _ => allows_release frame) ?_
  have leaves : Lockstep .same 0 Unit (do observe (.leave name (depth - 1)); release frame)
      (Run.leaveCall name frame (depth - 1)) :=
    (lockstep_observe (by simp) (by exact trivial)).bind fun _ => lockstep_release frame
  refine isRefusal_of_lockstep leaves fun {m e m'} ran => ?_
  have left := Run.leaves_leaveCall name frame (depth - 1) m
  rw [ran] at left
  cases left with
  | broken table i => exact trivial

/-! ## Host functions -/

/-- Making an object and going on with its handle. -/
theorem reports_making (l : Library) (c : NativeCall) {x : Chronicled Value} (hx : Reports x)
    {next : Except Cause Handle → HostCode} (relays : HostCode.Relays Cause.IsRefusal next)
    (hnext : ∀ r obtained, Reports (runHost l c (next r) obtained)) (obtained : List Value) :
    Reports (do
      let r ← HostCode.attempt x
      runHost l c (next (HostCode.keep obtained r).1) (HostCode.keep obtained r).2) := by
  intro w
  have first := hx w
  show Reports.Ends w (EStateM.bind (HostCode.attempt x) _ w)
  simp only [EStateM.bind, HostCode.attempt]
  generalize x w = r at first ⊢
  cases first with
  | ok h => exact (hnext _ _ _).from_rel h
  | @error f w' h =>
    cases f with
    | broken table i => exact .error (.inl trivial)
    | raised e =>
      obtain refusal | allows := h
      · obtain ⟨e', refusal', fails⟩ := relays e.cause refusal
        simp only [HostCode.keep, fails, runHost]
        exact .error (.inl refusal')
      · exact (hnext _ _ _).from_rel allows

theorem relates_reports : Relates fun _ x _ => Reports x where
  toCongruence := Reports.congruence
  inspect _ := .of_along (allows_onMachine _)
  allocate := reports_allocate
  update _ _ := .of_along (allows_noting _ fun _ => rfl)
  learn _ := .of_along (allows_onMachine _)
  observe _ := .of_along (allows_noting _ fun _ => rfl)
  begin := reports_begin
  loadGlobal _ _ := .of_along (allows_onMachine _)
  storeGlobal _ _ := .of_along (allows_onMachine _)

/-- Host code may look at a refusal, but goes on after none that is to be handed on. -/
theorem reports_runHost (l : Library) (c : NativeCall) {own : Exception → Prop} {code : HostCode}
    (h : code.HandsOn own Cause.IsRefusal) (obtained : List Value) : Reports (runHost l c code obtained) := by
  have R := relates_reports
  have looks {β : Type} (f : Heap → Attempt β) : Reports (inspect f) := .of_along (allows_onMachine _)
  have attempts {β : Type} (f : Heap → Attempt β) : Reports (HostCode.attempt (inspect f)) :=
    .of_along (allows_onMachine _).attempt
  have edits (v : Value) (e : Heap.Edit) : Reports (HostCode.attempt (editList c.name v e)) :=
    .of_along ((allows_onMachine _).bind fun _ => allows_noting _ fun _ => rfl).attempt
  induction code generalizing obtained with
  | giveBack v => exact R.pure _
  | fail e => exact .of_along (.throw _)
  | requireArity count next ih => exact (attempts _).bind fun r => ih r (h r) obtained
  | typeOf v next ih => exact (looks _).bind fun r => ih r (h r) obtained
  | textOf v next ih => exact (looks _).bind fun r => ih r (h r) obtained
  | intOf v next ih => exact ih _ (h _) obtained
  | objectOf v next ih => exact (looks _).bind fun r => ih r (h r) obtained
  | lengthOf v next ih => exact (attempts _).bind fun r => ih r (h r) obtained
  | newValue o next ih => exact reports_making l c (R.build o) h.2 (fun r => ih r (h.1 r)) obtained
  | newText s next ih => exact reports_making l c (R.make _) h.2 (fun r => ih r (h.1 r)) obtained
  | newStruct next ih => exact reports_making l c (R.make _) h.2 (fun r => ih r (h.1 r)) obtained
  | push list item next ih => exact (edits _ _).bind fun r => ih r (h r) obtained
  | clear list next ih => exact (edits _ _).bind fun r => ih r (h r) obtained

theorem corresponds_reports {l : Library} (handsOn : ∀ e ∈ l.natives, e.native.HandsOn Cause.IsRefusal) (limit : Nat) :
    Corresponds (fun _ x _ => Reports x) l limit 0 where
  toRelates := relates_reports
  native found c := reports_runHost l c (handsOn _ (Library.mem_of_native found) c.shape) []
  entered name depth frame _ _ _ hx := reports_entered name depth frame hx
  refused _ _ := (Reports.of_along (allows_onMachine _)).bind fun _ => reports_bar limit
  collectIfDue := .of_along allows_collectIfDue

end Chronicled

open Chronicled in
/-- If the host functions hand refusals on, an errand in which something is refused fails with a refusal. -/
theorem Errand.reports {l : Library} (handsOn : ∀ e ∈ l.natives, e.native.HandsOn Cause.IsRefusal) (limit : Nat)
    (e : Errand) : Reports (e.chronicled l limit) := by
  have R := corresponds_reports handsOn limit
  have unfolds (v : Value) : Reports (do return Answer.object (← inspect (v.unfold l))) :=
    .of_along ((allows_onMachine _).bind fun _ => .pure _)
  have settles {x : Chronicled Answer} (hx : Reports x) : Reports (Run.settling collectIfDue x) := by
    refine hx.settled id allows_collectIfDue (isRefusal_of_lockstep (lockstep_collectIfDue : Lockstep .same 0 ..) ?_)
    rintro ⟨⟨heap, lexicon⟩, globals, tracer⟩ e m' ran
    cases ran
  cases e with
  | exec code => exact settles ((R.execAll R.topLevel code).bind fun _ => .of_along (.pure _))
  | eval code => exact settles ((R.topLevel.eval code).bind unfolds)
  | call callee positional keywords =>
    refine (R.buildArgs positional keywords).bind fun args => settles ?_
    exact (R.callWithin limit (Nat.le_refl _) callee args).bind unfolds
  | set x o =>
    refine (R.build o).bind fun v => .of_along ?_
    exact (allows_onMachine _).bind fun _ => (allows_onMachine _).bind fun _ => .pure _
  | freeze =>
    rw [chronicled]
    exact .of_along (allows_noting _ fun _ => rfl)
  | collect => exact .of_along (allows_collect.bind fun _ => .pure _)

end Scriptlet
