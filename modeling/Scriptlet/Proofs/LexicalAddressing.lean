import Scriptlet.Proofs.Watch.Session

/-!
# Lexical addressing

Resolution says of each name how many functions up it is bound; at run time, that many frames up the chain of
parents is the frame to look in. The two agree: while the body of a function runs, the chain leads from the frame
of its call to the frame of the call in which its function value was made, from there to the frame of the call
in which the function value of that one was made, and so on, and the functions of these calls are those that
enclose the function in the program.
-/

namespace Scriptlet

open Budget (Meter)
open Code (EnclosedBy)
open Heap (Cell Frame)

variable {l : Library} {word : String → Prop} {H : History} {h : Heap} {L : Lineage} {r : CallRecord}

/-! ## The chain of frames -/

/-- Each call of a live lineage has its frame on the heap. The frame stems from that call, holds what the call
has assigned, and its parent is the frame of the next call. -/
theorem History.Tracks.describes (T : H.Tracks l word h) (live : L.Live H h) {k : Nat} (hr : L[k]? = some r) :
    ∃ f, h.cell? r.frame = some (.frame f) ∧ H.Describes l word h r.frame f r (L.drop (k + 1)) := by
  induction k generalizing L with
  | zero =>
    cases L with
    | nil => cases hr
    | cons q L =>
      cases hr
      obtain ⟨origin, f, hf⟩ := live r rfl
      obtain ⟨q, L', d⟩ := T.frame hf
      obtain ⟨rfl, rfl⟩ := List.cons.inj (origin.symm.trans d.origin)
      exact ⟨f, hf, d⟩
  | succ k ih =>
    cases L with
    | nil => cases hr
    | cons q L =>
      obtain ⟨origin, f, hf⟩ := live q rfl
      obtain ⟨q', L', d⟩ := T.frame hf
      obtain ⟨rfl, rfl⟩ := List.cons.inj (origin.symm.trans d.origin)
      exact ih d.live hr

/-- Going up the parents of frames follows the lineage. -/
theorem History.Tracks.enclosing (T : H.Tracks l word h) (live : L.Live H h) {k : Nat}
    (hr : L[k]? = some r) : h.enclosing k L.frame? = .ok (some r.frame) := by
  induction k generalizing L with
  | zero =>
    cases L with
    | nil => cases hr
    | cons q L =>
      cases hr
      rfl
  | succ k ih =>
    cases L with
    | nil => cases hr
    | cons q L =>
      obtain ⟨f, hf, d⟩ := T.describes live (k := 0) rfl
      show h.enclosing (k + 1) (some q.frame) = _
      simp only [Heap.enclosing, Heap.read_of_cell? hf]
      show h.enclosing k f.parent = _
      rw [d.parent]
      exact ih d.live hr

/-- The functions of a lineage enclose each other as their definitions do. -/
theorem History.Tracks.enclosedBy (T : H.Tracks l word h) (live : Lineage.Live (r :: L) H h) :
    EnclosedBy l.functions r.function (L.map CallRecord.function) := by
  induction L generalizing r with
  | nil =>
    obtain ⟨f, -, d⟩ := T.describes live (k := 0) rfl
    obtain ⟨found, nested, -⟩ := d.belongs.defined
    exact .outermost found nested
  | cons q L ih =>
    obtain ⟨f, -, d⟩ := T.describes live (k := 0) rfl
    obtain ⟨found, nested, -⟩ := d.belongs.defined
    exact .inside found nested (d.belongs.enclosed q rfl) (ih d.live)

/-! ## Variables and functions at a moment -/

/-- What lexical addressing means at a moment of a run. -/
structure Moment.Addressed (μ : Moment) : Prop where
  /-- The current frame is that of the running call; at module level there is none. -/
  frame : μ.activation.frame = μ.lineage.frame?
  /-- The functions of the calls that the running call stems from are those that enclose its function. -/
  enclosers : ∀ r rest, μ.lineage = r :: rest → ∀ gs,
    EnclosedBy μ.activation.library.functions r.function gs ↔ gs = rest.map CallRecord.function
  /-- The frames of these calls are live, and each is the parent of the one before. -/
  chain : ∀ k r, μ.lineage[k]? = some r →
    ∃ f, μ.machine.store.heap.cell? r.frame = some (.frame f) ∧
      f.parent = μ.lineage[k + 1]?.map CallRecord.frame ∧ μ.history.origin r.frame = μ.lineage.drop k
  /-- Going up `k` levels leads to the frame of the `k`th of these calls. -/
  enclosing : ∀ k r, μ.lineage[k]? = some r →
    μ.machine.store.heap.enclosing k μ.activation.frame = .ok (some r.frame)
  /-- A function value holds on to the frame of the call that made it. -/
  closures : ∀ a c, μ.machine.store.heap.cell? a = some (.closure c) →
    c.frame = (μ.history.origin a).frame?
  /-- A variable that is not a global is one of a call in this chain, and reading it fails exactly if that
  call has not assigned it. -/
  load : ∀ x, μ.need = some (.load x) → x.scope ≠ .global →
    ∃ r, x.call? μ.lineage = some r ∧
      (x.text ∈ μ.history.assigned r → ∃ v m, μ.activation.load x μ.machine = .ok v m) ∧
      (x.text ∉ μ.history.assigned r →
        ∃ m, μ.activation.load x μ.machine = .error (.ofCause (.unassignedLocal x.text)) m)
  /-- Assigning to a variable of the running call changes its frame and nothing else. -/
  store : ∀ x v, μ.need = some (.store x) → x.scope ≠ .global →
    ∃ r rest, μ.lineage = r :: rest ∧ x.call? μ.lineage = some r ∧
      μ.activation.store x v μ.machine =
        .ok () (μ.machine.withHeap (μ.machine.store.heap.update r.frame (Cell.assign x.text v)))
  /-- There is a current frame when a nested function is made, and only then. -/
  make : ∀ id n, μ.need = some (.make id n) →
    ∃ f, μ.activation.library.functions[id.index]? = some f ∧
      (f.nested = true ↔ μ.activation.frame.isSome)

namespace Moment.Right

variable {μ : Moment} {x : Code.Name}

/-- The call of a variable that is read and is not a global. -/
theorem load_call (right : μ.Right l word) (hx : μ.need = some (.load x)) (scope : x.scope ≠ .global) :
    ∃ k r, μ.lineage[k]? = some r ∧ x.call? μ.lineage = some r ∧
      (x.scope = .own ∧ k = 0 ∨ x.scope = .outer k) := by
  obtain ⟨⟨-, allowed⟩, -⟩ := right.need _ hx
  have level {k : Nat} (hk : k < μ.lineage.length) : ∃ r, μ.lineage[k]? = some r :=
    ⟨_, List.getElem?_eq_getElem hk⟩
  cases hs : x.scope with
  | global => exact absurd hs scope
  | own =>
    rw [hs] at allowed
    obtain ⟨r, hr⟩ := level allowed
    exact ⟨0, r, hr, by simp only [Code.Name.call?, hs, hr], .inl ⟨rfl, rfl⟩⟩
  | outer k =>
    rw [hs] at allowed
    obtain ⟨r, hr⟩ := level allowed.2
    exact ⟨k, r, hr, by simp only [Code.Name.call?, hs, hr], .inr rfl⟩

theorem load (right : μ.Right l word) (hx : μ.need = some (.load x)) (scope : x.scope ≠ .global) :
    ∃ r, x.call? μ.lineage = some r ∧
      (x.text ∈ μ.history.assigned r → ∃ v m, μ.activation.load x μ.machine = .ok v m) ∧
      (x.text ∉ μ.history.assigned r →
        ∃ m, μ.activation.load x μ.machine = .error (.ofCause (.unassignedLocal x.text)) m) := by
  obtain ⟨k, r, hr, hcall, hk⟩ := right.load_call hx scope
  have tracks := right.tracked.tracks
  obtain ⟨f, hf, d⟩ := tracks.describes right.live hr
  have hframe := right.frame ▸ tracks.enclosing right.live hr
  have loads : ∃ m : Machine, m.store = μ.machine.store ∧
      μ.activation.load x μ.machine = Activation.loadFrom (some r.frame) x.text m := by
    obtain ⟨hs, rfl⟩ | hs := hk
    · have here : μ.activation.frame = some r.frame := Except.ok.inj hframe
      exact ⟨μ.machine, rfl, here ▸ Activation.load_own hs⟩
    · exact ⟨{ μ.machine with tracer := μ.machine.tracer.observe (.outerLoad x.text k) }, rfl,
        Activation.load_outer hs hframe⟩
  obtain ⟨m, hm, hload⟩ := loads
  rw [← hm] at hf
  refine ⟨r, hcall, fun hmem => ?_, fun hmem => ?_⟩
  · obtain ⟨v, hv⟩ := (f.vars.mem_keys_iff x.text).1 ((d.assigned x.text).2 hmem)
    exact ⟨v, m, by rw [hload, Activation.loadFrom_frame hf, hv]⟩
  · have hv : f.vars.find? x.text = none := by
      refine Option.eq_none_iff_forall_ne_some.2 fun v hv => hmem ?_
      exact (d.assigned x.text).1 ((f.vars.mem_keys_iff x.text).2 ⟨v, hv⟩)
    exact ⟨m, by rw [hload, Activation.loadFrom_frame hf, hv]⟩

theorem store (right : μ.Right l word) (hx : μ.need = some (.store x)) (scope : x.scope ≠ .global) (v : Value) :
    ∃ r rest, μ.lineage = r :: rest ∧ x.call? μ.lineage = some r ∧
      μ.activation.store x v μ.machine =
        .ok () (μ.machine.withHeap (μ.machine.store.heap.update r.frame (Cell.assign x.text v))) := by
  obtain ⟨⟨-, allowed⟩, -⟩ := right.need _ hx
  have frame := right.frame
  have live := right.live
  cases hl : μ.lineage with
  | nil =>
    rw [hl] at allowed
    exact absurd allowed scope
  | cons r rest =>
    rw [hl] at allowed frame live
    have own : x.scope = .own := allowed
    obtain ⟨-, f, hf⟩ := live r rfl
    exact ⟨r, rest, rfl, by simp only [Code.Name.call?, own]; rfl, Activation.store_own v own frame hf⟩

theorem make {id : FunctionId} {n : Nat} (right : μ.Right l word) (hx : μ.need = some (.make id n)) :
    ∃ f, l.functions[id.index]? = some f ∧ (f.nested = true ↔ μ.activation.frame.isSome) := by
  obtain ⟨⟨f, hf, -, nested⟩, -⟩ := right.need _ hx
  refine ⟨f, hf, ?_⟩
  rw [nested, right.frame]
  cases μ.lineage <;> simp [Lineage.frame?]

end Moment.Right

/-- At every proper moment names are addressed lexically. -/
theorem Moment.Proper.addressed {μ : Moment} (proper : μ.Proper) : μ.Addressed := by
  obtain ⟨⟨word, right⟩, nodup, -⟩ := proper
  have tracks := right.tracked.tracks
  refine ⟨right.frame, fun r rest hl gs => ?_, fun k r hr => ?_, fun k r hr => ?_, fun a c hc => ?_,
    fun x => right.load, fun x v hx scope => right.store hx scope v, fun id n => right.make⟩
  · have enclosed := tracks.enclosedBy (hl ▸ right.live)
    exact ⟨fun h => h.unique nodup enclosed, fun h => h ▸ enclosed⟩
  · obtain ⟨f, hf, d⟩ := tracks.describes right.live hr
    refine ⟨f, hf, ?_, ?_⟩
    · rw [d.parent, Lineage.frame?, List.head?_drop]
    · obtain ⟨hk, rfl⟩ := List.getElem?_eq_some_iff.1 hr
      rw [d.origin, ← List.drop_eq_getElem_cons]
  · exact right.frame ▸ tracks.enclosing right.live hr
  · exact (tracks.closure hc).1

/-- In every session, at each moment at which code asks something of the machine, the frames of the calls that
enclose the running one are where resolution expects them. The watched session is the session itself. -/
theorem session_addressed (name : String) (meter : Meter) (steps : List Step) :
    ((Module.create name meter).runWatched {} steps).1 = (Module.create name meter).run steps ∧
    ∀ μ ∈ ((Module.create name meter).runWatched {} steps).2, μ.Addressed := by
  have session := Module.session_right (Module.tracked_create name meter) steps
  exact ⟨session.result, fun μ hμ => (session.moments μ hμ).addressed⟩

-- A function that reads a variable of the function around it: the last moment of the session is that read, in a
-- call that one other call encloses.
example :
    ((Module.create "m" (.depthOnly none)).runWatched {} [.exec .silent [
      .define "f" [] [
        .assign (.name "x") (.bool true),
        .define "g" [] [.giveBack (some (.name "x"))],
        .giveBack (some (.call (.name "g") []))],
      .expr (.call (.name "f") [])]]).2.head?.map (fun μ => (μ.need, μ.lineage.length)) =
    some (some (.load ⟨"x", .outer 1⟩), 2) := by
  decide +kernel

end Scriptlet
