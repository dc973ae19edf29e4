import Scriptlet.Proofs.Freezing
import Scriptlet.Proofs.Pairing.Session

/-!
# Frozen modules have no memory

Of what happens in a frozen module nothing can be seen later. The requests that it meets leave garbage on the heap,
make slots change hands, add words to the lexicon and functions to the table, and may fail. All that later requests
build on, what the globals reach and the host functions, is as it was at the time of the freeze. So the module as
it was then and the module as it is now hold the same, with the functions that come next at other places.
-/

namespace Scriptlet

open Budget (Meter)
open Code (shift)
open Heap (Reaches)

/-- Whether a request gives the module a host function. -/
def Step.providesNative : Step → Bool
  | .addBuiltin .. | .addMethod .. => true
  | _ => false

/-! ## What stays outside the globals -/

namespace Module

/-- The second module has the name of the first one, and its host functions. -/
structure SameOwner (m m' : Module) : Prop where
  name : m.name = m'.name
  host : m.library.SameHost m'.library

theorem SameOwner.refl (m : Module) : m.SameOwner m := ⟨rfl, rfl, rfl, rfl⟩

theorem SameOwner.trans {m m' m'' : Module} (h : m.SameOwner m') (h' : m'.SameOwner m'') : m.SameOwner m'' :=
  ⟨h.name.trans h'.name, h'.host.natives.trans h.host.natives, h'.host.builtins.trans h.host.builtins,
    h'.host.methods.trans h.host.methods⟩

theorem sameOwner_enter {α : Type} (m : Module) (tracer : Trace.Tracer) (x : Library → Run α) :
    m.SameOwner (m.enter tracer x).after := by
  obtain ⟨store, globals, after⟩ := m.after_enter tracer x
  rw [after]
  exact ⟨rfl, rfl, rfl, rfl⟩

theorem sameOwner_withDraft (m : Module) (d : Code.Draft) : m.SameOwner (m.withDraft d) :=
  ⟨rfl, rfl, rfl, rfl⟩

/-- Only the host gives a module host functions. -/
theorem sameOwner_step (m : Module) {s : Step} (hs : s.providesNative = false) : m.SameOwner (m.step s).2 := by
  cases s with
  | exec tracer program =>
    simp only [step, exec, resolve_eq]
    split
    all_goals
      rename_i resolved
      obtain ⟨-, rfl⟩ := Prod.mk.inj resolved
    · exact m.sameOwner_withDraft _
    · exact (m.sameOwner_withDraft _).trans (sameOwner_enter _ _ _)
  | eval e =>
    simp only [step, eval, resolve_eq]
    split
    all_goals
      rename_i resolved
      obtain ⟨-, rfl⟩ := Prod.mk.inj resolved
    · exact m.sameOwner_withDraft _
    · exact (m.sameOwner_withDraft _).trans (sameOwner_enter _ _ _)
  | call tracer x positional keywords =>
    obtain ⟨name, library, store, globals⟩ := m
    simp only [step, call, reply]
    split
    · exact .refl _
    · split
      · exact ⟨rfl, rfl, rfl, rfl⟩
      · rename_i store' _
        have built : SameOwner ⟨name, library, store, globals⟩ ⟨name, library, store', globals⟩ :=
          ⟨rfl, rfl, rfl, rfl⟩
        exact built.trans (sameOwner_enter _ _ _)
  | set x o =>
    obtain ⟨name, library, store, globals⟩ := m
    simp only [step, set]
    split
    · exact ⟨rfl, rfl, rfl, rfl⟩
    · split <;> exact ⟨rfl, rfl, rfl, rfl⟩
  | addBuiltin x native => cases hs
  | addMethod type x native => cases hs
  | _ => exact ⟨rfl, rfl, rfl, rfl⟩

theorem sameOwner_run (m : Module) {steps : List Step} (hs : ∀ s ∈ steps, s.providesNative = false) :
    m.SameOwner (m.run steps).2 := by
  induction steps generalizing m with
  | nil => exact .refl m
  | cons s steps ih =>
    rw [List.forall_mem_cons] at hs
    exact (m.sameOwner_step hs.1).trans (ih _ hs.2)

end Module

/-! ## Settled modules -/

/-- A machine in order holds the same as itself, if its functions keep their places. -/
theorem Machine.Sound.machines_self {l : Library} {m : Machine} {ρ : Renumbering} (h : m.Sound l)
    (fixed : ∀ {id f}, l.functions[id.index]? = some f → ρ id = id)
    (meters : m.store.heap.meter.SameUpToCollection m.store.heap.meter) : (m.store.view l).machines l ρ m m := by
  have le : (m.store.view l).Le ((m.store.view l).linkedTo l ρ) := by
    refine ⟨id, id, id, fun _ => trivial, id, ?_⟩
    rintro id _ n ⟨rfl, f, hf, hcount⟩
    exact ⟨(fixed hf).symm, f, hf, hcount⟩
  have heaps := h.store.alike.relink le id id id
  exact ⟨⟨heaps, h.store.tidy, h.store.tidy, meters⟩, h.globals.imp fun _ _ _ hv => hv.mono le, rfl, rfl⟩

namespace Module

variable {m m' : Module} {H H' : History}

/-- The functions of a module in order make only functions of the module. -/
theorem Tracked.made_lt (h : m.Tracked H) {id : FunctionId} {f : Code.Function}
    (hf : m.library.functions[id.index]? = some f) (made : FunctionId) (n : Nat)
    (hn : .make made n ∈ f.body.needs) : made.index < m.library.functions.size := by
  obtain ⟨g, hg, -⟩ := (h.complete.function hf).2 _ hn
  exact (Array.getElem?_eq_some_iff.1 hg).1

/-- A settled module that counts nothing holds the same as what becomes of it. -/
theorem Tracked.paired_of_lasts (h : m.Tracked H) (h' : m'.Tracked H') (settled : Settled m.globals m.heap)
    {maxDepth : Option Nat} (meter : m.heap.meter = .depthOnly maxDepth) (owner : m.SameOwner m')
    (lasts : Lasts m.globals m.heap m'.globals m'.heap)
    (grows : Code.Extends m.library.functions m'.library.functions) : m.Paired m' := by
  obtain ⟨globals, cells⟩ := lasts.kept settled
  have meter' : m'.heap.meter = .depthOnly maxDepth := by
    refine Meter.eq_of_reset (lasts.meter.trans ?_)
    rw [meter]
    rfl
  let ρ := shift m.library.functions.size m'.library.functions.size
  have same : m.library.Renumbered ρ m'.library := ⟨owner.host, Code.renumbered_shift grows h.made_lt⟩
  have fixed {id : FunctionId} {f : Code.Function} (hf : m.library.functions[id.index]? = some f) :
      ρ id = id := Code.shift_of_lt (Array.getElem?_eq_some_iff.1 hf).1
  have meters : m.heap.meter.SameUpToCollection m.heap.meter := meter ▸ .depthOnly maxDepth
  have self := h.machine.sound.machines_self fixed meters
  -- What the roots reach has not changed, so the heap of now serves the machine of then.
  have thinned : m.heap.Thinned m.globals.roots m'.heap :=
    ⟨fun _ => h'.machine.sound.store.tidy, cells, 0, by rw [Meter.refund_zero, meter, meter']⟩
  have reached := self.thinned (m.heap.thinned_self _) thinned
  obtain ⟨name, library, store, g⟩ := m
  obtain ⟨name', library', store', g'⟩ := m'
  obtain rfl : name = name' := owner.name
  obtain rfl : g' = g := globals
  exact .intro same ⟨reached.stores.of_lexicons store.lexicon store'.lexicon, reached.globals,
    reached.frozen, reached.tracer⟩

end Module

/-- A frozen module that limits nothing but the call depth has no memory: a request that is not about the heap
itself gets the reply that it would have got right after the freeze, whatever the module was asked in between, as
long as the host has not given it other functions. A reply is the answer, which is an object or a failure with all
its data, together with what the tracer has kept. -/
theorem frozen_reply_unaffected_by_history (name : String) (maxDepth : Option Nat) (before : List Step)
    {between : List Step} (noNatives : ∀ s ∈ between, s.providesNative = false) {request : Step}
    (visible : request.aboutHeap = false) :
    let frozen := ((Module.create name (.depthOnly maxDepth)).run before).2.freeze
    ((frozen.run between).2.step request).1 = (frozen.step request).1 := by
  intro frozen
  have first := Module.session_right (Module.tracked_create name (.depthOnly maxDepth)) before
  obtain ⟨H, tracked⟩ := first.tracked
  have later := Module.session_right tracked.freeze between
  obtain ⟨H', tracked'⟩ := later.tracked
  have meter : frozen.heap.meter = .depthOnly maxDepth := Meter.eq_of_reset first.lasts.meter
  have paired : frozen.Paired (frozen.run between).2 :=
    tracked.freeze.paired_of_lasts tracked' tracked.settled_freeze meter
      (frozen.sameOwner_run noNatives) later.lasts later.grows
  exact (Module.step_sameReply paired tracked.freeze visible).1.symm

/-- A function that tries to keep its arguments in a default and one that makes another function. In between, the
first one is called, a global is assigned to, code with a function of its own runs, and the heap is collected. -/
theorem frozen_reply_unaffected_by_history_defaults :
    let setUp : Step := .exec .silent [
      .assign (.name "flags") (.list [.bool true]),
      .define "note" [.required "x", .defaulted "seen" (.list [])]
        [.augment (.name "seen") .add (.list [.name "x"]), .giveBack (some (.name "seen"))],
      .define "pair" [.required "x"]
        [.giveBack (some (.call (.lambda [] (.list [.name "x", .name "flags"])) []))]]
    let between : List Step := [.call .silent "note" [.bool true] [], .set "flags" .none,
      .exec .silent [.expr (.call (.lambda [.rest "xs"] (.name "xs")) [.positional (.list [])])],
      .eval (.name "missing"), .collect]
    let request : Step := .call .recorder "pair" [.none] []
    let frozen := ((Module.create "m" (.depthOnly none)).run [setUp]).2.freeze
    let later := (frozen.run between).2
    (later.step request).1 = (frozen.step request).1 ∧
      (frozen.step request).1.answer = .object (.list [.none, .list [.bool true]]) ∧
      frozen.library.functions.size < later.library.functions.size :=
  ⟨frozen_reply_unaffected_by_history "m" none _ (by decide) rfl, by decide +kernel, by decide +kernel⟩

end Scriptlet
