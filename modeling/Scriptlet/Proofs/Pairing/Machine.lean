import Scriptlet.Proofs.Evaluation
import Scriptlet.Proofs.Pairing.Store

/-!
# Two machines

Two machines whose stores and globals hold the same answer every request of the code that runs on them alike, and
so all code does the same on both, if it finds the same functions in two libraries. A call opens frames that stand
for each other, and when it is over, both are released or both are kept.
-/

namespace Scriptlet

open Call (Args)
open Code (Name Need)
open Heap (Cell Closure Frame)

/-- Two machines hold the same, as far as things stand for each other. -/
structure Matching.machines (M : Matching) (l : Library) (ρ : Renumbering) (m m' : Machine) : Prop where
  stores : M.stores l ρ m.store m'.store
  globals : m.globals.vars.Matches (M.linkedTo l ρ).binding m'.globals.vars
  frozen : m.globals.frozen = m'.globals.frozen
  tracer : m.tracer = m'.tracer

/-- Two machines that hold the same, beside each other, in calls with the frames `p` and `q`. -/
def Machine.pairing (l : Library) (ρ : Renumbering) (p q : Option Address) :
    Simulation Machine Machine Matching where
  le := Matching.Le
  refl := Matching.Le.refl
  trans := Matching.Le.trans
  states M m m' := M.machines l ρ m m' ∧ p.Rel M.frame q

open Machine (pairing)

/-! ## Steps -/

section steps

variable {l l' : Library} {ρ : Renumbering} {M : Matching} {p q : Option Address}

/-- The stores of two machines go on holding the same. -/
theorem Matching.machines.of_stores {N : Matching} {s t s' t' : Store} {g g' : Globals}
    {tracer tracer' : Trace.Tracer} (S : M.machines l ρ ⟨s, g, tracer⟩ ⟨t, g', tracer'⟩) (le : M.Le N)
    (stores : N.stores l ρ s' t') : N.machines l ρ ⟨s', g, tracer⟩ ⟨t', g', tracer'⟩ :=
  ⟨stores, S.globals.imp fun _ _ _ hv => hv.mono (le.linkedTo l ρ), S.frozen, S.tracer⟩

/-- An operation on the stores. -/
theorem pairing_onStore {α β : Type} {R : Matching → α → β → Prop} {x : StoreM α} {y : StoreM β}
    (h : (Store.pairing l ρ).Runs M R x y) : (pairing l ρ p q).Runs M R (Run.onStore x) (Run.onStore y) := by
  rintro ⟨store, globals, tracer⟩ ⟨store', globals', tracer'⟩ ⟨S, frames⟩
  have ends := h S.stores
  have states {N : Matching} {s t : Store} (le : M.Le N) (stores : N.stores l ρ s t) :
      (pairing l ρ p q).states N ⟨s, globals, tracer⟩ ⟨t, globals', tracer'⟩ :=
    ⟨S.of_stores le stores, Matching.rel_imp le.frame frames⟩
  simp only [Run.onStore]
  generalize x store = r at ends ⊢
  generalize y store' = r' at ends ⊢
  cases ends with
  | ok le stores hR => exact .ok le (states le stores) hR
  | raised e le stores => exact .raised e le (states le stores)

/-- The tracers are told of an event. -/
theorem pairing_observe (e : Trace.Event) :
    (pairing l ρ p q).Runs M (fun _ _ _ => True) (Run.observe e) (Run.observe e) := by
  rintro ⟨store, globals, tracer⟩ ⟨store', globals', tracer'⟩ ⟨S, frames⟩
  have tracers := congrArg (·.observe e) S.tracer
  exact .ok (.refl M) ⟨⟨S.stores, S.globals, S.frozen, tracers⟩, frames⟩ trivial

theorem pairing_loadGlobal (hl : l.Linked) (same : l.Renumbered ρ l') (x : String) :
    (pairing l ρ p q).Runs M (fun N => (N.linkedTo l ρ).value) (Run.loadGlobal l x)
      (Run.loadGlobal l' x) := by
  rintro m m' ⟨S, frames⟩
  have found := Globals.lookup_agree ((Store.pairing_rules hl same).serves M) S.globals x
  simp only [Run.loadGlobal]
  generalize m.globals.lookup l x = r at found ⊢
  generalize m'.globals.lookup l' x = r' at found ⊢
  cases found with
  | ok hv => exact .ok (.refl M) ⟨S, frames⟩ hv
  | raised e => exact .raised _ (.refl M) ⟨S, frames⟩

/-- A variable is read from frames that stand for each other. -/
theorem pairing_loadFrom (hl : l.Linked) (same : l.Renumbered ρ l') {r r' : Option Address}
    (hr : r.Rel M.frame r') (x : String) :
    (pairing l ρ p q).Runs M (fun N => (N.linkedTo l ρ).value) (Activation.loadFrom r x)
      (Activation.loadFrom r' x) := by
  have rules := Store.pairing_rules hl same
  unfold Activation.loadFrom
  refine (pairing_onStore (rules.inspect (R := fun N => Option.Rel (N.linkedTo l ρ).value)
    fun _ _ _ A => A.variableIn hr x)).bind fun N v v' _ hv => ?_
  cases hv with
  | some hv => exact .pure hv
  | none => exact .raise _

/-- A global is assigned on both sides, unless the globals are frozen. -/
theorem pairing_storeGlobal (x : String) {v v' : Value} (hv : (M.linkedTo l ρ).value v v') :
    (pairing l ρ p q).Runs M (fun _ _ _ => True) (Run.storeGlobal x v) (Run.storeGlobal x v') := by
  rintro ⟨store, globals, tracer⟩ ⟨store', globals', tracer'⟩ ⟨S, frames⟩
  have frozen : globals.frozen = globals'.frozen := S.frozen
  simp only [Run.storeGlobal, frozen]
  cases globals'.frozen with
  | true => exact .raised _ (.refl M) ⟨S, frames⟩
  | false =>
    exact .ok (.refl M) ⟨⟨S.stores, S.globals.insert ⟨trivial, hv⟩, frozen, S.tracer⟩, frames⟩ trivial

end steps

/-! ## Requests -/

section requests

variable {l l' : Library} {ρ : Renumbering} {M : Matching} {p q : Option Address} {act act' : Activation}

theorem pairing_load (hl : l.Linked) (same : l.Renumbered ρ l') (library : act.library = l)
    (library' : act'.library = l') (frame : act.frame = p) (frame' : act'.frame = q) (x : Name) :
    (pairing l ρ p q).Runs M (fun N => (N.linkedTo l ρ).value) (act.load x) (act'.load x) := by
  have rules := Store.pairing_rules hl same
  rintro m m' ⟨S, frames⟩
  subst frame frame'
  suffices runs : (pairing l ρ act.frame act'.frame).Runs M (fun N => (N.linkedTo l ρ).value) (act.load x)
    (act'.load x) from runs ⟨S, frames⟩
  unfold Activation.load
  split
  · rw [library, library']
    exact pairing_loadGlobal hl same x.text
  · exact pairing_loadFrom hl same frames x.text
  · rename_i levels hscope
    refine (pairing_observe _).bind fun N₁ _ _ hN₁ _ => ?_
    refine (pairing_onStore (rules.inspect (R := fun N => Option.Rel N.frame)
      fun _ _ _ A => A.enclosing levels ?_)).bind fun N₂ r r' _ hr => pairing_loadFrom hl same hr x.text
    exact Matching.rel_imp hN₁.frame frames

/-- The frames that a name is assigned in stand for each other. -/
theorem Alike.frameOf {M : Matching} {h h' : Heap} (A : Alike M h h')
    (frames : act.frame.Rel M.frame act'.frame) (x : Name) :
    Agree (Option.Rel M.frame) (act.frameOf h x) (act'.frameOf h' x) := by
  unfold Activation.frameOf
  split
  · exact .ok .none
  · exact .ok frames
  · exact A.enclosing _ frames

theorem pairing_store (hl : l.Linked) (same : l.Renumbered ρ l') (frame : act.frame = p)
    (frame' : act'.frame = q) (x : Name) {v v' : Value} (hv : (M.linkedTo l ρ).value v v') :
    (pairing l ρ p q).Runs M (fun _ _ _ => True) (act.store x v) (act'.store x v') := by
  have rules := Store.pairing_rules hl same
  rintro m m' ⟨S, frames⟩
  subst frame frame'
  suffices runs : (pairing l ρ act.frame act'.frame).Runs M (fun _ _ _ => True) (act.store x v)
    (act'.store x v') from runs ⟨S, frames⟩
  unfold Activation.store
  refine (pairing_onStore (rules.inspect (R := fun N => Option.Rel (N.linkedTo l ρ).frame)
    (f := fun h => act.frameOf h x) (g := fun h => act'.frameOf h x)
    fun _ _ _ A => A.frameOf frames x)).bind fun N₁ r r' hN₁ hr => ?_
  have hv₁ := hv.mono (hN₁.linkedTo l ρ)
  refine (pairing_onStore (Store.pairing_assign (M := N₁) hr x.text hv₁)).bind
    fun N₂ b b' hN₂ hb => ?_
  subst hb
  cases b with
  | true => exact .pure trivial
  | false => exact pairing_storeGlobal x.text (hv₁.mono (hN₂.linkedTo l ρ))

/-- What code may ask of a library: functions of the table, with as many defaults as they want. -/
def Library.Offers (l : Library) : Need → Prop
  | .make id n => ∃ f, l.functions[id.index]? = some f ∧ f.signature.defaultsCount = n
  | _ => True

theorem pairing_makeFunction (same : l.Renumbered ρ l') (library : act.library = l)
    (library' : act'.library = l') (frame : act.frame = p) (frame' : act'.frame = q) {id : FunctionId}
    {vs vs' : List Value} (offered : l.Offers (.make id vs.length)) (hvs : (M.linkedTo l ρ).values vs vs') :
    (pairing l ρ p q).Runs M (fun N => (N.linkedTo l ρ).value) (act.makeFunction id vs)
      (act'.makeFunction (ρ id) vs') := by
  obtain ⟨f, hf, hcount⟩ := offered
  have found : l.function id = .ok f := by simp only [Library.function, hf]
  have found' : l'.function (ρ id) = .ok (f.renumber ρ) := by
    simp only [Library.function, same.functions.function hf]
  rw [Activation.makeFunction_eq (library.symm ▸ found), Activation.makeFunction_eq (library'.symm ▸ found')]
  subst frame frame'
  refine (pairing_observe _).bind fun N₁ _ _ hN₁ _ => ?_
  have hvs₁ := Matching.values.mono (hN₁.linkedTo l ρ) hvs
  have make {N : Matching} {r r' : Option Address} (hvs : (N.linkedTo l ρ).values vs vs')
      (captured : r.Rel N.captured r') : (pairing l ρ act.frame act'.frame).Runs N
        (fun N => (N.linkedTo l ρ).value) (Run.allocate (.closure ⟨id, vs, r⟩))
        (Run.allocate (.closure ⟨ρ id, vs', r'⟩)) := by
    have known : (N.linkedTo l ρ).function id (ρ id) vs.length := ⟨rfl, f, hf, hcount⟩
    rw [Run.allocate_eq, Run.allocate_eq]
    exact (pairing_onStore (Store.pairing_place (.closure known hvs captured))).bind
      fun _ _ _ _ hab => .pure (.ref hab)
  have nested : (f.renumber ρ).nested = f.nested := rfl
  cases hn : f.nested with
  | false =>
    simp only [nested.trans hn, Bool.false_eq_true, if_false]
    exact make hvs₁ .none
  | true =>
    simp only [nested.trans hn, if_true]
    rintro m m' ⟨S, frames⟩
    refine Simulation.Runs.bind (R := fun N (_ _ : Unit) => act.frame.Rel N.captured act'.frame)
      (pairing_onStore (Store.pairing_capture frames)) (fun N₂ _ _ hN₂ captured => ?_) ⟨S, frames⟩
    exact make (Matching.values.mono (hN₂.linkedTo l ρ) hvs₁) captured

/-- Two activations offer the same to the code that runs in them, if they make calls alike and each finds the
functions at their places in its library. -/
theorem engineMatch_pairing (hl : l.Linked) (same : l.Renumbered ρ l') (library : act.library = l)
    (library' : act'.library = l') (frame : act.frame = p) (frame' : act'.frame = q) (depth : act.depth = act'.depth)
    (hcall : ∀ {M v v' args args'}, (M.linkedTo l ρ).value v v' → (M.linkedTo l ρ).args args args' →
      (pairing l ρ p q).Runs M (fun N => (N.linkedTo l ρ).value) (act.call v args) (act'.call v' args')) :
    EngineMatch (pairing l ρ p q) (fun M => M.linkedTo l ρ) l.Offers act.engine
      (act'.engine.relabel ρ) := by
  have rules := Store.pairing_rules hl same
  refine
    { view_le := fun h => h.linkedTo l ρ
      word := fun _ _ => trivial
      load := fun {_ x} _ => pairing_load hl same library library' frame frame' x
      store := fun {_ x _ _} _ => pairing_store hl same frame frame' x
      list := fun hvs => pairing_onStore
        (rules.allocate ⟨.list false (by simpa using hvs), Heap.CellKind.noConfusion⟩)
      tuple := fun hvs => pairing_onStore
        (rules.allocate ⟨.tuple (by simpa using hvs), Heap.CellKind.noConfusion⟩)
      key := fun hv => pairing_onStore (rules.inspect (R := fun _ => Eq) fun _ _ _ A => A.key hv)
      dict := fun hes => pairing_onStore (rules.allocate ⟨.dict false hes, Heap.CellKind.noConfusion⟩)
      item := fun hv hi => pairing_onStore (rules.inspect (R := fun N => (N.linkedTo l ρ).value)
        fun _ _ _ A => A.item hv hi)
      setItem := fun hv hi hu => pairing_onStore (rules.setItem hv hi hu)
      attr := ?_
      binary := fun hv hu => pairing_onStore (rules.binary _ hv hu)
      augment := fun hv hu => pairing_onStore (rules.augment _ hv hu)
      compare := fun hv hu => pairing_onStore (rules.inspect (R := fun _ => Eq)
        fun _ _ _ A => A.holds _ hv hu)
      negate := fun hv => pairing_onStore (rules.inspect (R := fun N => (N.linkedTo l ρ).value)
        fun _ _ _ A => A.negate hv)
      truthy := fun hv => pairing_onStore (rules.inspect (R := fun _ => Eq) fun _ _ _ A => A.truthy hv)
      items := fun hv => pairing_onStore (rules.inspect (R := fun N => (N.linkedTo l ρ).values)
        fun _ _ _ A => A.items hv)
      keywords := fun hv => pairing_onStore (rules.spreadKeywords hv)
      function := pairing_makeFunction same library library' frame frame'
      call := hcall
      begin := ?_ }
  · intro M v v' attr hv
    show (pairing l ρ p q).Runs M _ (Run.onStore (Store.readAttr act.library v attr))
      (Run.onStore (Store.readAttr act'.library v' attr))
    rw [library, library']
    exact pairing_onStore (rules.readAttr hv attr)
  · intro M kind
    show (pairing l ρ p q).Runs M _ (act.begin kind) (act'.begin kind)
    unfold Activation.begin
    rw [depth]
    exact (pairing_onStore Store.pairing_tick).bind fun _ _ _ _ _ => pairing_observe _

end requests

end Scriptlet
