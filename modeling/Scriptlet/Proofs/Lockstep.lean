import Scriptlet.Proofs.Along
import Scriptlet.Proofs.Chronicle.Correspondence

/-!
# Runs in lockstep

Two machines with the same objects, globals and tracer may be metered differently and may know different words. A
chronicled run on one of them and a run of the same code on the other go in lockstep as long as both meters allow the
same: they give the same answers and reach machines that again differ in nothing else. Only a refusal parts them, and
then the chronicle tells of it.

The chronicle of a run leads without a gap from the heap that it started with to the heap that it has reached. The
tracer was told the events of the chronicle and no others.
-/

namespace Scriptlet

open Budget (Meter)
open Call (Args)
open Code (Lexicon)
open Fault (Cause)
open Heap (Cell Chain Change)
open Trace (Event Tracer)

/-! ## What a chronicle tells -/

/-- If a call was entered, then no deeper than the limit. -/
def Happening.EntersWithin (limit : Nat) : Happening → Prop
  | .told (.enter _ depth) => depth ≤ limit
  | _ => True

/-- What the tracer was told in the course of some changes. -/
def Heap.told (path : List Change) : List Event := path.filterMap (·.what.event?)

/-- Some change is a refusal. -/
def Heap.Refused (past : List Change) : Prop := ∃ x ∈ past, x.what.isRefusal = true

/-- The second state is reached from the first one by the changes that were added to the chronicle: they lead from its
heap to the other, the tracer was told their events, and their calls were entered within the limit. -/
def Chronicle.Recounts (limit : Nat) (w w' : Chronicle) : Prop :=
  ∃ path, w'.past = w.past ++ path ∧ w.machine.store.heap.Chain path w'.machine.store.heap ∧
    w'.machine.tracer = w.machine.tracer.observeAll (Heap.told path) ∧ ∀ x ∈ path, x.what.EntersWithin limit

instance (limit : Nat) : IsPreorder Chronicle (Chronicle.Recounts limit) where
  refl w := ⟨[], by simp, .start, rfl, by simp⟩
  trans w₁ w₂ w₃ := by
    rintro ⟨path, past, chain, told, within⟩ ⟨path', past', chain', told', within'⟩
    refine ⟨path ++ path', by rw [past', past, List.append_assoc], chain.append chain', ?_, fun x hx => ?_⟩
    · rw [told', told, Tracer.observeAll, Tracer.observeAll, Tracer.observeAll, Heap.told, Heap.told,
        Heap.told, List.filterMap_append, List.foldl_append]
    · obtain hx | hx := List.mem_append.1 hx
      · exact within x hx
      · exact within' x hx

theorem Chronicle.Recounts.refused {limit : Nat} {w w' : Chronicle} (h : Recounts limit w w')
    (refused : Heap.Refused w.past) : Heap.Refused w'.past := by
  obtain ⟨path, past, -⟩ := h
  obtain ⟨x, hx, refusal⟩ := refused
  exact ⟨x, past ▸ List.mem_append_left _ hx, refusal⟩

/-- What becomes of the machine when this one thing happens. -/
structure Machine.Undergoes (limit : Nat) (m : Machine) (e : Happening) (m' : Machine) : Prop where
  happens : m.store.heap.Happens e m'.store.heap
  told : m'.tracer = m.tracer.observeAll e.event?.toList
  within : e.EntersWithin limit

theorem Machine.Undergoes.recounts {limit : Nat} {m m' : Machine} {e : Happening} (h : m.Undergoes limit e m')
    (past : List Change) : Chronicle.Recounts limit ⟨m, past⟩ ⟨m', past ++ [⟨m.store.heap, e, m'.store.heap⟩]⟩ := by
  refine ⟨_, rfl, .single h.happens, ?_, fun x hx => ?_⟩
  · simp only [h.told, Heap.told, List.filterMap_cons, List.filterMap_nil]
    cases e.event? <;> rfl
  · rw [List.mem_singleton.1 hx]
    exact h.within

/-! ## Couplings -/

/-- Which meters and which lexicons belong together, and whether a refusal may part the two runs. What is counted on
both sides keeps the meters together, and where the first one refuses, either the second one does as well or the runs
may part. -/
structure Coupling where
  meter : Meter → Meter → Prop
  lexicon : Lexicon → Lexicon → Prop
  parts : Prop
  charge : ∀ {m m' : Meter}, meter m m' → ∀ size,
    (∃ use, m.charge size = .error use ∧ (parts ∨ m'.charge size = .error use)) ∨
    ∃ k k', m.charge size = .ok k ∧ m'.charge size = .ok k' ∧ meter k k'
  refund : ∀ {m m' : Meter}, meter m m' → ∀ size, meter (m.refund size) (m'.refund size)
  tick : ∀ {m m' : Meter}, meter m m' →
    ((∃ use, m.tick.1 = some use) ∧ parts) ∨ m.tick.1 = m'.tick.1 ∧ meter m.tick.2 m'.tick.2
  interval : ∀ {m m' : Meter}, meter m m' → m.collectionInterval = m'.collectionInterval
  learn : ∀ {x x' : Lexicon}, lexicon x x' → ∀ w, lexicon (x.learn w) (x'.learn w)

namespace Coupling

/-- Machines that differ at most in the words they know. -/
def metered (lexicon : Lexicon → Lexicon → Prop)
    (learn : ∀ {x x' : Lexicon}, lexicon x x' → ∀ w, lexicon (x.learn w) (x'.learn w)) : Coupling where
  meter := Eq
  lexicon
  parts := False
  charge := by
    rintro m _ rfl size
    cases m.charge size with
    | error use => exact .inl ⟨use, rfl, .inr rfl⟩
    | ok k => exact .inr ⟨k, k, rfl, rfl, rfl⟩
  refund h size := congrArg (·.refund size) h
  tick h := .inr ⟨congrArg (·.tick.1) h, congrArg (·.tick.2) h⟩
  interval h := congrArg (·.collectionInterval) h
  learn

theorem learn_eq {x x' : Lexicon} (h : x = x') (w : String) : x.learn w = x'.learn w := congrArg (·.learn w) h

/-- Machines that are the same. -/
abbrev same : Coupling := metered Eq learn_eq

variable (C : Coupling)

/-- Two heaps differ in nothing but their meters, which belong together. -/
inductive heaps : Heap → Heap → Prop where
  | intro (slots : Array (Option Cell)) (free : List Address) (sinceCollection : Nat) {m m' : Meter}
      (h : C.meter m m') : heaps ⟨slots, free, m, sinceCollection⟩ ⟨slots, free, m', sinceCollection⟩

/-- Two stores have heaps and lexicons that belong together. -/
inductive stores : Store → Store → Prop where
  | intro {h h' : Heap} {x x' : Lexicon} (hh : C.heaps h h') (hx : C.lexicon x x') :
      stores ⟨h, x⟩ ⟨h', x'⟩

/-- Two machines have stores that belong together and are the same otherwise. -/
inductive machines : Machine → Machine → Prop where
  | intro {s s' : Store} (h : C.stores s s') (globals : Globals) (tracer : Tracer) :
      machines ⟨s, globals, tracer⟩ ⟨s', globals, tracer⟩

theorem machines_same {m m' : Machine} : same.machines m m' ↔ m = m' := by
  constructor
  · rintro ⟨⟨⟨slots, free, sinceCollection, rfl⟩, rfl⟩, globals, tracer⟩
    rfl
  · rintro rfl
    obtain ⟨⟨⟨slots, free, meter, sinceCollection⟩, lexicon⟩, globals, tracer⟩ := m
    exact ⟨⟨⟨_, _, _, rfl⟩, rfl⟩, _, _⟩

variable {C : Coupling} {h h' : Heap}

theorem heaps.discard (hh : C.heaps h h') (a : Address) : C.heaps (h.discard a) (h'.discard a) := by
  obtain ⟨slots, free, sinceCollection, hm⟩ := hh
  rename_i m m'
  have same : Heap.cell? ⟨slots, free, m', sinceCollection⟩ a = Heap.cell? ⟨slots, free, m, sinceCollection⟩ a := rfl
  unfold Heap.discard
  rw [same]
  cases Heap.cell? ⟨slots, free, m, sinceCollection⟩ a with
  | none => exact ⟨_, _, _, hm⟩
  | some c => exact ⟨_, _, _, C.refund hm c.size⟩

end Coupling

theorem Heap.markFrom_unmetered (h : Heap) (meter : Meter) (rounds : Nat) (waiting : List Address)
    (marks : Array Bool) : markFrom { h with meter } rounds waiting marks = h.markFrom rounds waiting marks := by
  induction rounds generalizing waiting marks with
  | zero => rfl
  | succ n ih =>
    unfold markFrom
    cases waiting.dropWhile fun a => !unmarked marks a with
    | nil => rfl
    | cons a rest => exact ih _ _

namespace Coupling.heaps

variable {C : Coupling} {h h' : Heap}

theorem mark (hh : C.heaps h h') (roots : List Address) : h'.mark roots = h.mark roots := by
  obtain ⟨slots, free, sinceCollection, hm⟩ := hh
  exact Heap.markFrom_unmetered ⟨slots, free, _, sinceCollection⟩ _ ..

theorem unreached (hh : C.heaps h h') (roots : List Address) :
    h'.unreached (h'.mark roots) = h.unreached (h.mark roots) := by
  rw [hh.mark roots]
  obtain ⟨slots, free, sinceCollection, hm⟩ := hh
  rfl

theorem freezeFrom (hh : C.heaps h h') (roots : List Address) : C.heaps (h.freezeFrom roots) (h'.freezeFrom roots) := by
  have marked := hh.mark roots
  obtain ⟨slots, free, sinceCollection, hm⟩ := hh
  simp only [Heap.freezeFrom, marked]
  exact ⟨_, _, _, hm⟩

theorem collectionDue (hh : C.heaps h h') : h.collectionDue = h'.collectionDue := by
  obtain ⟨slots, free, sinceCollection, hm⟩ := hh
  simp only [Heap.collectionDue, C.interval hm]

end Coupling.heaps

/-! ## Lockstep -/

/-- How a chronicled and a plain computation end in lockstep: with the same result or failure, on machines that belong
together, unless a refusal has parted them. -/
inductive Lockstep.Ends (C : Coupling) {α : Type} :
    EStateM.Result Failure Chronicle α → EStateM.Result Failure Machine α → Prop where
  | ok {a : α} {w : Chronicle} {m : Machine} (h : C.machines w.machine m) : Ends C (.ok a w) (.ok a m)
  | error {f : Failure} {w : Chronicle} {m : Machine} (h : C.machines w.machine m) : Ends C (.error f w) (.error f m)
  | partOk {a : α} {w : Chronicle} {q : EStateM.Result Failure Machine α} (parts : C.parts)
      (refused : Heap.Refused w.past) : Ends C (.ok a w) q
  | partError {f : Failure} {w : Chronicle} {q : EStateM.Result Failure Machine α} (parts : C.parts)
      (refused : Heap.Refused w.past) : Ends C (.error f w) q

/-- The chronicle of the first computation has no gaps, and from machines that belong together both computations end in
lockstep. -/
structure Lockstep (C : Coupling) (limit : Nat) (α : Type) (x : Chronicled α) (y : Run α) : Prop where
  recounts : Along (Chronicle.Recounts limit) x
  ends : ∀ {w : Chronicle} {m : Machine}, C.machines w.machine m → Lockstep.Ends C (x w) (y m)

namespace Lockstep

variable {C : Coupling} {limit : Nat} {α β : Type} {x : Chronicled α}

theorem Ends.of_refused (parts : C.parts) {w : Chronicle} (refused : Heap.Refused w.past)
    (recounts : Along (Chronicle.Recounts limit) x) (q : EStateM.Result Failure Machine α) : Ends C (x w) q := by
  have later := recounts w
  generalize x w = r at later ⊢
  cases later with
  | ok h => exact .partOk parts (h.refused refused)
  | error h => exact .partError parts (h.refused refused)

theorem Ends.bind {x : Chronicled α} {y : Run α} {f : α → Chronicled β} {g : α → Run β} {w : Chronicle} {m : Machine}
    (h : Ends C (x w) (y m)) (hfg : ∀ a, Lockstep C limit β (f a) (g a)) : Ends C ((x >>= f) w) ((y >>= g) m) := by
  show Ends C (EStateM.bind x f w) (EStateM.bind y g m)
  unfold EStateM.bind
  generalize x w = r at h ⊢
  generalize y m = q at h ⊢
  cases h with
  | ok h => exact (hfg _).ends h
  | error h => exact .error h
  | partOk parts refused => exact .of_refused parts refused (hfg _).recounts _
  | partError parts refused => exact .partError parts refused

theorem pure (a : α) : Lockstep C limit α (Pure.pure a) (Pure.pure a) := ⟨.pure a, .ok⟩

theorem throw (f : Failure) : Lockstep C limit α (MonadExcept.throw f) (MonadExcept.throw f) := ⟨.throw f, .error⟩

theorem bind {x : Chronicled α} {y : Run α} {f : α → Chronicled β} {g : α → Run β} (h : Lockstep C limit α x y)
    (hfg : ∀ a, Lockstep C limit β (f a) (g a)) : Lockstep C limit β (x >>= f) (y >>= g) :=
  ⟨h.recounts.bind fun a => (hfg a).recounts, fun hm => (h.ends hm).bind hfg⟩

theorem congruence : Congruence (Lockstep C limit) := ⟨pure, fun _ => throw _, bind⟩

theorem caught {y : Run α} (h : Lockstep C limit α x y) :
    Lockstep C limit (Except Failure α) (Run.caught x) (Run.caught y) := by
  refine ⟨h.recounts.caught, fun {w m} hm => ?_⟩
  have ends := h.ends hm
  unfold Run.caught
  generalize x w = r at ends ⊢
  generalize y m = q at ends ⊢
  cases ends with
  | ok h => exact .ok h
  | error h => exact .ok h
  | partOk parts refused => exact .partOk parts refused
  | partError parts refused => exact .partOk parts refused

theorem finish (f : Failure → Failure) (r : Except Failure α) :
    Lockstep C limit α (Run.finish f r) (Run.finish f r) := by
  cases r with
  | ok a => exact pure a
  | error e => exact throw (f e)

theorem attempt {y : StoreM α} (h : Lockstep C limit α x (Run.onStore y)) :
    Lockstep C limit (Except Cause α) (HostCode.attempt x) (Run.onStore (HostCode.attempt y)) := by
  have outside : Run.onStore (HostCode.attempt y) = HostCode.attempt (Run.onStore y) := by
    funext ⟨store, globals, tracer⟩
    simp only [Run.onStore, HostCode.attempt]
    rcases y store with _ | ⟨_ | _, _⟩ <;> rfl
  rw [outside, HostCode.attempt_eq, HostCode.attempt_eq]
  refine h.caught.bind fun r => ?_
  rcases r with (e | e) | a
  · exact pure _
  · exact throw _
  · exact pure _

/-- A call goes in lockstep if its body and the cleaning up after it do. -/
theorem guarded (name : String) {x : Chronicled Value} {y : Run Value} {c : Chronicled Unit} {d : Run Unit}
    (body : Lockstep C limit Value x y) (after : Lockstep C limit Unit c d) :
    Lockstep C limit Value (Run.guarded name x c) (Run.guarded name y d) := by
  rw [Run.guarded_eq, Run.guarded_eq]
  exact body.caught.bind fun r => after.bind fun _ => finish _ r

theorem settling {y : Run α} {c : Chronicled Unit} {d : Run Unit} (after : Lockstep C limit Unit c d)
    (h : Lockstep C limit α x y) : Lockstep C limit α (Run.settling c x) (Run.settling d y) :=
  h.caught.bind fun r => after.bind fun _ => finish _ r

/-- Computations that first read off their machines what is the same on both. -/
theorem reading {γ : Type} {x : γ → Chronicled α} {y : γ → Run α} {read : Machine → γ}
    (same : ∀ {m m' : Machine}, C.machines m m' → read m = read m') (h : ∀ c, Lockstep C limit α (x c) (y c)) :
    Lockstep C limit α (fun w => x (read w.machine) w) (fun m => y (read m) m) :=
  ⟨fun w => (h _).recounts w, fun hm => same hm ▸ (h _).ends hm⟩

end Lockstep

/-! ## Operations of the machine -/

/-- How the runs of a computation on two machines end: with the same result or failure, on machines that belong
together, unless the first one is refused something. -/
inductive Coupling.Agree (C : Coupling) (refused : Prop) {α : Type} :
    EStateM.Result Failure Machine α → EStateM.Result Failure Machine α → Prop where
  | ok {a : α} {m m' : Machine} (h : C.machines m m') : Agree C refused (.ok a m) (.ok a m')
  | error {f : Failure} {m m' : Machine} (h : C.machines m m') : Agree C refused (.error f m) (.error f m')
  | refused {f : Failure} {m : Machine} {q : EStateM.Result Failure Machine α} (h : refused) :
      Agree C refused (.error f m) q

/-- All runs on machines that belong together end so. -/
def Coupling.Keeps (C : Coupling) (refused : Prop) {α : Type} (x : Run α) : Prop :=
  ∀ {m m' : Machine}, C.machines m m' → C.Agree refused (x m) (x m')

/-- Nothing has happened to the heap, and the tracer was told nothing. -/
def Machine.Undisturbed (m m' : Machine) : Prop := m'.store.heap = m.store.heap ∧ m'.tracer = m.tracer

/-- A computation has ended, and one thing has happened on the way that depends on how it ended. -/
inductive Machine.Underwent (limit : Nat) {α : Type} (what : Except Failure α → Happening) (m : Machine) :
    EStateM.Result Failure Machine α → Prop where
  | ok {a : α} {m' : Machine} (h : m.Undergoes limit (what (.ok a)) m') : Underwent limit what m (.ok a m')
  | error {f : Failure} {m' : Machine} (h : m.Undergoes limit (what (.error f)) m') :
      Underwent limit what m (.error f m')

namespace Chronicled

variable {C : Coupling} {limit : Nat} {α : Type}

theorem lockstep_onMachine {x : Run α} (quiet : Along Machine.Undisturbed x) (keeps : C.Keeps False x) :
    Lockstep C limit α (onMachine x) x := by
  refine ⟨fun ⟨m, past⟩ => ?_, fun {w m'} hm => ?_⟩
  · have same {m' : Machine} (h : m.Undisturbed m') : Chronicle.Recounts limit ⟨m, past⟩ ⟨m', past⟩ := by
      refine ⟨[], by simp, ?_, h.2, by simp⟩
      rw [h.1]
      exact .start
    have ends := quiet m
    simp only [onMachine]
    generalize x m = r at ends ⊢
    cases ends with
    | ok h => exact .ok (same h)
    | error h => exact .error (same h)
  · obtain ⟨m, past⟩ := w
    have agree := keeps hm
    simp only [onMachine]
    generalize x m = r at agree ⊢
    generalize x m' = q at agree ⊢
    cases agree with
    | ok h => exact .ok h
    | error h => exact .error h
    | refused h => exact h.elim

theorem lockstep_noting {x : Run α} {what : Except Failure α → Happening} {refused : Prop}
    (undergoes : ∀ m, Machine.Underwent limit what m (x m)) (keeps : C.Keeps refused x)
    (noted : refused → C.parts ∧ ∀ f, (what (.error f)).isRefusal = true) : Lockstep C limit α (noting x what) x := by
  refine ⟨fun ⟨m, past⟩ => ?_, fun {w m'} hm => ?_⟩
  · have ends := undergoes m
    simp only [noting]
    generalize x m = r at ends ⊢
    cases ends with
    | ok h => exact .ok (h.recounts past)
    | error h => exact .error (h.recounts past)
  · obtain ⟨m, past⟩ := w
    have agree := keeps hm
    simp only [noting]
    generalize x m = r at agree ⊢
    generalize x m' = q at agree ⊢
    cases agree with
    | ok h => exact .ok h
    | error h => exact .error h
    | refused h =>
      exact .partError (noted h).1 ⟨_, List.mem_append_right _ List.mem_cons_self, (noted h).2 _⟩

theorem lockstep_inspect {f : Heap → Attempt α} (hf : Looks f) : Lockstep C limit α (inspect f) (Run.inspect f) := by
  refine lockstep_onMachine ?_ ?_
  · rintro ⟨⟨heap, lexicon⟩, globals, tracer⟩
    simp only [Run.inspect, Run.onStore, Store.inspect, Store.onHeap, Heap.inspect]
    cases f heap with
    | ok a => exact .ok ⟨rfl, rfl⟩
    | error e => exact .error ⟨rfl, rfl⟩
  · rintro _ _ ⟨⟨⟨slots, free, sinceCollection, hm⟩, hx⟩, globals, tracer⟩
    rename_i meter meter'
    have same := hf ⟨slots, free, meter, sinceCollection⟩ meter'
    simp only [Run.inspect, Run.onStore, Store.inspect, Store.onHeap, Heap.inspect, same]
    cases f ⟨slots, free, meter, sinceCollection⟩ with
    | ok a => exact .ok ⟨⟨⟨_, _, _, hm⟩, hx⟩, _, _⟩
    | error e => exact .error ⟨⟨⟨_, _, _, hm⟩, hx⟩, _, _⟩

theorem lockstep_allocate (c : Cell) :
    Lockstep C limit Address (allocate c) (Run.onStore (Store.onHeap (Heap.allocate c))) := by
  refine lockstep_noting ?_ ?_ fun h : C.parts => ⟨h, fun _ => rfl⟩
  · rintro ⟨⟨heap, lexicon⟩, globals, tracer⟩
    simp only [Run.onStore, Store.onHeap]
    cases ran : Heap.allocate c heap with
    | ok a heap' => exact .ok ⟨.allocated ran, rfl, trivial⟩
    | error f heap' => exact .error ⟨.refused ran, rfl, trivial⟩
  · rintro _ _ ⟨⟨⟨slots, free, sinceCollection, hm⟩, hx⟩, globals, tracer⟩
    simp only [Run.onStore, Store.onHeap, Heap.allocate]
    obtain ⟨use, refused, parts | refused'⟩ | ⟨k, k', charged, charged', hk⟩ := C.charge hm c.size
    · simp only [refused]
      exact .refused parts
    · simp only [refused, refused']
      exact .error ⟨⟨⟨_, _, _, hm⟩, hx⟩, _, _⟩
    · simp only [charged, charged', Heap.place]
      cases free with
      | nil => exact .ok ⟨⟨⟨_, _, _, hk⟩, hx⟩, _, _⟩
      | cons a free =>
        by_cases hi : a.index < slots.size
        · simp only [if_pos hi]
          exact .ok ⟨⟨⟨_, _, _, hk⟩, hx⟩, _, _⟩
        · simp only [if_neg hi]
          exact .error ⟨⟨⟨_, _, _, hk⟩, hx⟩, _, _⟩

theorem lockstep_update (a : Address) (f : Cell → Cell) :
    Lockstep C limit Unit (update a f) (Run.onStore (Store.onHeap (modify fun h => h.update a f))) := by
  refine lockstep_noting (fun m => .ok ⟨.updated a f, rfl, trivial⟩) ?_ False.elim
  rintro _ _ ⟨⟨⟨slots, free, sinceCollection, hm⟩, hx⟩, globals, tracer⟩
  exact .ok ⟨⟨⟨_, _, _, hm⟩, hx⟩, _, _⟩

theorem lockstep_observe {e : Event} (other : ∀ kind depth, e ≠ .statement kind depth)
    (within : (Happening.told e).EntersWithin limit) : Lockstep C limit Unit (observe e) (Run.observe e) := by
  refine lockstep_noting (fun m => .ok ⟨.told other, rfl, within⟩) ?_ False.elim
  rintro _ _ ⟨hs, globals, tracer⟩
  exact .ok ⟨hs, _, _⟩

theorem lockstep_begin (kind : Trace.StatementKind) (depth : Nat) : Lockstep C limit Unit (begin kind depth)
    (do Run.onStore (Store.onHeap Run.tick); Run.observe (.statement kind depth)) := by
  refine lockstep_noting ?_ ?_ fun h : C.parts => ⟨h, fun _ => rfl⟩
  · rintro ⟨⟨heap, lexicon⟩, globals, tracer⟩
    cases ran : Run.tick heap with
    | ok u heap' =>
      rw [bind_of_ok (Run.onStore_onHeap_ok (m := ⟨⟨heap, lexicon⟩, globals, tracer⟩) ran)]
      exact .ok ⟨.started kind depth ran, rfl, trivial⟩
    | error f heap' =>
      rw [bind_of_error (Run.onStore_onHeap_error (m := ⟨⟨heap, lexicon⟩, globals, tracer⟩) ran)]
      exact .error ⟨.stopped ran, rfl, trivial⟩
  · rintro _ _ ⟨⟨⟨slots, free, sinceCollection, hm⟩, hx⟩, globals, tracer⟩
    rename_i meter meter'
    have ticked := C.tick hm
    show C.Agree _ (EStateM.bind _ _ _) (EStateM.bind _ _ _)
    simp only [EStateM.bind, Run.onStore, Store.onHeap, Run.tick]
    generalize meter.tick = t at ticked ⊢
    generalize meter'.tick = t' at ticked ⊢
    obtain ⟨use, k⟩ := t
    obtain ⟨use', k'⟩ := t'
    obtain ⟨⟨exceeded, rfl⟩, parts⟩ | ⟨rfl, hk⟩ := ticked
    · exact .refused parts
    · cases use with
      | none => exact .ok ⟨⟨⟨_, _, _, hk⟩, hx⟩, _, _⟩
      | some exceeded => exact .error ⟨⟨⟨_, _, _, hk⟩, hx⟩, _, _⟩

theorem lockstep_loadGlobal (l : Library) (x : String) :
    Lockstep C limit Value (onMachine (Run.loadGlobal l x)) (Run.loadGlobal l x) := by
  refine lockstep_onMachine ?_ ?_
  · intro m
    unfold Run.loadGlobal
    cases m.globals.lookup l x with
    | ok v => exact .ok ⟨rfl, rfl⟩
    | error e => exact .error ⟨rfl, rfl⟩
  · rintro _ _ ⟨hs, globals, tracer⟩
    simp only [Run.loadGlobal]
    cases globals.lookup l x with
    | ok v => exact .ok ⟨hs, _, _⟩
    | error e => exact .error ⟨hs, _, _⟩

theorem lockstep_storeGlobal (x : String) (v : Value) :
    Lockstep C limit Unit (onMachine (Run.storeGlobal x v)) (Run.storeGlobal x v) := by
  refine lockstep_onMachine ?_ ?_
  · rintro ⟨store, globals, tracer⟩
    unfold Run.storeGlobal
    by_cases frozen : globals.frozen
    · simp only [if_pos frozen]
      exact .error ⟨rfl, rfl⟩
    · simp only [if_neg frozen]
      exact .ok ⟨rfl, rfl⟩
  · rintro _ _ ⟨hs, globals, tracer⟩
    simp only [Run.storeGlobal]
    by_cases frozen : globals.frozen
    · simp only [if_pos frozen]
      exact .error ⟨hs, _, _⟩
    · simp only [if_neg frozen]
      exact .ok ⟨hs, _, _⟩

theorem lockstep_learn (w : String) : Lockstep C limit Unit (learn w) (Run.onStore (Store.learn w)) := by
  refine lockstep_onMachine (fun m => .ok ⟨rfl, rfl⟩) ?_
  rintro _ _ ⟨⟨hh, hx⟩, globals, tracer⟩
  exact .ok ⟨⟨hh, C.learn hx w⟩, _, _⟩

theorem relates_lockstep (C : Coupling) (limit : Nat) : Relates (Lockstep C limit) where
  toCongruence := Lockstep.congruence
  inspect := lockstep_inspect
  allocate := lockstep_allocate
  update := lockstep_update
  learn := lockstep_learn
  observe := by
    intro e aside
    refine lockstep_observe ?_ ?_
    · rintro kind depth rfl
      cases aside
    · cases e with
      | enter name depth => cases aside
      | _ => exact trivial
  begin := lockstep_begin
  loadGlobal := lockstep_loadGlobal
  storeGlobal := lockstep_storeGlobal

/-! ## Freed objects -/

theorem lockstep_free (a : Address) :
    Lockstep C limit Unit (free a) (Run.onStore (Store.onHeap (modify fun h => h.discard a))) := by
  refine ⟨?_, ?_⟩
  · rintro ⟨⟨⟨heap, lexicon⟩, globals, tracer⟩, past⟩
    simp only [free]
    cases found : heap.cell? a with
    | none => exact .ok (refl_of (Chronicle.Recounts limit) _)
    | some c =>
      have undergoes : Machine.Undergoes limit ⟨⟨heap, lexicon⟩, globals, tracer⟩ (.freed a c.size)
          ⟨⟨heap.discard a, lexicon⟩, globals, tracer⟩ := ⟨.freed found, rfl, trivial⟩
      exact .ok (undergoes.recounts past)
  · rintro ⟨_, past⟩ _ ⟨⟨hh, hx⟩, globals, tracer⟩
    rename_i h h' _ _
    have discarded := hh.discard a
    simp only [free]
    cases found : h.cell? a with
    | none =>
      have same : h.discard a = h := by simp only [Heap.discard, found]
      rw [same] at discarded
      exact .ok ⟨⟨discarded, hx⟩, globals, tracer⟩
    | some c => exact .ok ⟨⟨discarded, hx⟩, globals, tracer⟩

theorem lockstep_releaseFrame (a : Address) :
    Lockstep C limit Unit (releaseFrame a) (Run.onStore (Store.onHeap (Heap.releaseFrame a))) := by
  have released : Run.onStore (Store.onHeap (Heap.releaseFrame a)) = (do
      if ← Run.inspect (·.isReleased a) then
        Run.onStore (Store.onHeap (modify fun h => h.discard a)) : Run Unit) := by
    funext ⟨⟨heap, lexicon⟩, globals, tracer⟩
    show _ = EStateM.bind _ _ _
    simp only [EStateM.bind, Run.inspect, Run.onStore, Store.inspect, Store.onHeap, Heap.inspect, Heap.releaseFrame,
      Heap.isReleased]
    by_cases hi : heap.slots.size ≤ a.index
    · simp only [if_pos hi, Flaw.failure]
    · simp only [if_neg hi]
      rcases heap.cell? a with _ | (_ | _ | _ | _ | _ | _ | _ | ⟨_, _, _ | _⟩) <;> rfl
  rw [released]
  refine (lockstep_inspect fun _ _ => rfl).bind fun ended => ?_
  cases ended with
  | true => exact lockstep_free a
  | false => exact .pure ()

theorem lockstep_freeAll (dead : List Address) :
    Lockstep C limit Unit (freeAll dead) (Run.onStore (Store.onHeap (modify fun h => dead.foldl Heap.discard h))) := by
  induction dead with
  | nil => exact .pure ()
  | cons a dead ih => exact (lockstep_free a).bind fun _ => ih

theorem lockstep_sweep : Lockstep C limit Unit
    (noting (Run.onStore (Store.onHeap (modify fun h => { h with sinceCollection := 0 }))) fun _ => .swept)
    (Run.onStore (Store.onHeap (modify fun h => { h with sinceCollection := 0 }))) := by
  refine lockstep_noting (fun m => .ok ⟨.swept, rfl, trivial⟩) ?_ False.elim
  rintro _ _ ⟨⟨⟨slots, free, sinceCollection, hm⟩, hx⟩, globals, tracer⟩
  exact .ok ⟨⟨⟨_, _, _, hm⟩, hx⟩, _, _⟩

theorem lockstep_collect : Lockstep C limit Nat collect Run.collect := by
  have same {m m' : Machine} (hm : C.machines m m') : m.store.heap.unreached (m.store.heap.mark m.globals.roots) =
      m'.store.heap.unreached (m'.store.heap.mark m'.globals.roots) := by
    obtain ⟨⟨hh, hx⟩, globals, tracer⟩ := hm
    exact (hh.unreached globals.roots).symm
  exact .reading same fun dead => (lockstep_freeAll dead).bind fun _ => lockstep_sweep.bind fun _ => .pure dead.length

theorem lockstep_collectIfDue : Lockstep C limit Unit collectIfDue Run.collectIfDue := by
  have same {m m' : Machine} (hm : C.machines m m') : m.store.heap.collectionDue = m'.store.heap.collectionDue := by
    obtain ⟨⟨hh, hx⟩, globals, tracer⟩ := hm
    exact hh.collectionDue
  have collected : Run.collectIfDue = fun m =>
      (if m.store.heap.collectionDue then do let _ ← Run.collect else return : Run Unit) m := by
    funext ⟨⟨heap, lexicon⟩, globals, tracer⟩
    unfold Run.collectIfDue
    by_cases due : heap.collectionDue
    · simp only [if_pos due]
      rfl
    · simp only [if_neg due]
      rfl
  rw [collected]
  let x (due : Bool) : Chronicled Unit := if due then do let _ ← collect else return
  let y (due : Bool) : Run Unit := if due then do let _ ← Run.collect else return
  have both (due : Bool) : Lockstep C limit Unit (x due) (y due) := by
    cases due with
    | true => exact lockstep_collect.bind fun _ => .pure ()
    | false => exact .pure ()
  exact .reading same both

/-! ## Calls and errands -/

theorem lockstep_release (frame : Option Address) : Lockstep C limit Unit (release frame) (Run.release frame) := by
  cases frame with
  | none => exact .pure ()
  | some a => exact lockstep_releaseFrame a

theorem lockstep_entered (name : String) {depth : Nat} (frame : Option Address) {x : Chronicled Value} {y : Run Value}
    (h : depth ≤ limit) (body : Lockstep C limit Value x y) :
    Lockstep C limit Value (entered name depth x (release frame)) (Run.entered name depth y (Run.release frame)) := by
  have enters : Lockstep C limit Unit (observe (.enter name depth)) (Run.observe (.enter name depth)) :=
    lockstep_observe (by simp) h
  have leaves : Lockstep C limit Unit (observe (.leave name (depth - 1))) (Run.observe (.leave name (depth - 1))) :=
    lockstep_observe (by simp) trivial
  exact enters.bind fun _ => body.guarded name (leaves.bind fun _ => lockstep_release frame)

/-- A call that is refused goes in lockstep with the same refusal, and with any other run if the runs may part. -/
theorem lockstep_bar {n : Nat} {y : Run Value}
    (h : C.parts ∨ y = raise (.exhausted (.depth n (n + 1)))) : Lockstep C limit Value (bar n) y := by
  refine ⟨fun ⟨m, past⟩ => ?_, fun {w m} hm => ?_⟩
  · exact .error (Machine.Undergoes.recounts ⟨.barred, rfl, trivial⟩ past)
  · obtain parts | rfl := h
    · exact .partError parts ⟨_, List.mem_append_right _ List.mem_cons_self, rfl⟩
    · exact .error hm

theorem corresponds_lockstep (C : Coupling) (l : Library) (limit more : Nat) (parts : 0 < more → C.parts) :
    Corresponds (Lockstep C limit) l limit more where
  toRelates := relates_lockstep C limit
  native _ c := (relates_lockstep C limit).runHost .attempt (fun e => .throw (.raised e)) l c _ []
  entered name _ frame _ _ h body := lockstep_entered name frame h body
  refused v args := by
    cases more with
    | zero =>
      rw [Nat.add_zero, Run.callWithin_zero]
      exact (lockstep_inspect (fun _ _ => by rfl)).bind fun _ => lockstep_bar (.inr rfl)
    | succ more =>
      exact (lockstep_inspect (fun _ _ => by rfl)).bind fun _ => lockstep_bar (.inl (parts (Nat.succ_pos _)))
  collectIfDue := lockstep_collectIfDue

end Chronicled

open Chronicled in
/-- Every errand goes in lockstep with its chronicle. -/
theorem Errand.lockstep (C : Coupling) (l : Library) (limit more : Nat) (parts : 0 < more → C.parts) (e : Errand) :
    Lockstep C limit Answer (e.chronicled l limit) (e.run l (limit + more)) := by
  have R := corresponds_lockstep C l limit more parts
  have unfolds (v : Value) : Lockstep C limit Answer (do return Answer.object (← inspect (v.unfold l)))
      (do return Answer.object (← Run.inspect (v.unfold l))) :=
    (lockstep_inspect (v.looks_unfold l)).bind fun o => .pure (Answer.object o)
  cases e with
  | exec code => exact .settling lockstep_collectIfDue ((R.execAll R.topLevel code).bind fun _ => .pure Answer.done)
  | eval code => exact .settling lockstep_collectIfDue ((R.topLevel.eval code).bind unfolds)
  | call callee positional keywords =>
    refine (R.buildArgs positional keywords).bind fun args => .settling lockstep_collectIfDue ?_
    exact (R.callWithin limit (Nat.le_refl _) callee args).bind unfolds
  | set x o =>
    refine (R.build o).bind fun v => (lockstep_learn x).bind fun _ => ?_
    exact (lockstep_storeGlobal x v).bind fun _ => .pure Answer.done
  | freeze =>
    have undergoes (m : Machine) : Machine.Underwent limit (fun _ => .changed) m (freeze.run l (limit + more) m) :=
      .ok ⟨.frozen m.globals.roots, rfl, trivial⟩
    refine lockstep_noting undergoes ?_ False.elim
    rintro _ _ ⟨⟨hh, hx⟩, globals, tracer⟩
    exact .ok ⟨⟨hh.freezeFrom globals.roots, hx⟩, _, tracer⟩
  | collect => exact lockstep_collect.bind fun n => .pure (Answer.count n)

end Scriptlet
