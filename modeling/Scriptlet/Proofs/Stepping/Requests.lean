import Scriptlet.Proofs.Along
import Scriptlet.Proofs.Stepping.Adequacy

/-!
# What requests change

Whatever is asked of the machine between two recursive calls, no call is entered or left meanwhile, and the limit of
the depth stays. A failure has not left a call, unless it is one that a host function hands on.
-/

namespace Scriptlet

open Budget (Meter)
open Heap (Cell)
open Trace (Event)

/-! ## The limit of the depth -/

namespace Heap

/-- The two heaps allow as many open calls. -/
def SameLimit (h h' : Heap) : Prop := h'.meter.depthLimit = h.meter.depthLimit

instance : IsPreorder Heap SameLimit where
  refl _ := rfl
  trans _ _ _ h h' := Eq.trans h' h

theorem sameLimit_discard (h : Heap) (a : Address) : h.SameLimit (h.discard a) := by
  unfold discard SameLimit
  cases h.cell? a with
  | none => rfl
  | some c => exact Meter.depthLimit_of_reset (h.meter.reset_refund c.size)

theorem sameLimit_collect (h : Heap) (roots : List Address) : h.SameLimit (h.collect roots).2 :=
  rel_discards sameLimit_discard _ h

theorem along_place (c : Cell) : Along SameLimit (place c) := by
  intro h
  unfold place
  cases h.free with
  | nil => exact .ok rfl
  | cons a free =>
    by_cases hi : a.index < h.slots.size
    · simp only [if_pos hi]
      exact .ok rfl
    · simp only [if_neg hi]
      exact .error rfl

theorem along_allocate (c : Cell) : Along SameLimit (allocate c) := by
  intro h
  unfold allocate
  cases charged : h.meter.charge c.size with
  | error use => exact .error rfl
  | ok meter =>
    have same : h.SameLimit { h with meter, sinceCollection := h.sinceCollection + 1 } :=
      Meter.depthLimit_of_reset (Meter.reset_charge charged)
    exact (along_place c _).from_rel same

theorem along_tick : Along SameLimit Run.tick := by
  rintro ⟨slots, free, meter, sinceCollection⟩
  have same := Meter.depthLimit_of_reset meter.reset_tick
  simp only [Run.tick]
  generalize meter.tick = ticked at same ⊢
  obtain ⟨use, meter'⟩ := ticked
  cases use with
  | none => exact Along.Ends.ok (R := SameLimit) same
  | some use => exact Along.Ends.error (R := SameLimit) same

theorem Primitive.along_sameLimit {α : Type} {x : HeapM α} (h : Primitive α x) : Along SameLimit x := by
  cases h with
  | inspect looks => exact along_inspect _
  | allocate c => exact along_allocate c
  | update a f => exact fun _ => .ok rfl

end Heap

/-- The two stores allow as many open calls. -/
abbrev Store.SameLimit : Store → Store → Prop := Store.Via Heap.SameLimit

theorem Store.Primitive.along_sameLimit {α : Type} {x : StoreM α} (h : Primitive α x) : Along SameLimit x :=
  h.along Heap.Primitive.along_sameLimit

/-! ## The machine -/

/-- An event of code that runs with `depth` calls open, other than that a call is entered or left. -/
def Trace.Event.Within (depth : Nat) : Event → Prop
  | .statement _ d => d = depth
  | .enter .. => False
  | .leave .. => False
  | _ => True

/-- What a machine can become while `depth` calls are open and none is entered or left. -/
structure Machine.Advances (depth : Nat) (m m' : Machine) : Prop where
  limit : m'.depthLimit = m.depthLimit
  told : ∃ es : List Event, (∀ e ∈ es, e.Within depth) ∧ m'.tracer = m.tracer.observeAll es

instance (depth : Nat) : IsPreorder Machine (Machine.Advances depth) where
  refl m := ⟨rfl, [], by simp, rfl⟩
  trans m₁ m₂ m₃ h h' := by
    obtain ⟨es, hes, told⟩ := h.told
    obtain ⟨es', hes', told'⟩ := h'.told
    refine ⟨h'.limit.trans h.limit, es ++ es', ?_, ?_⟩
    · intro e he
      rcases List.mem_append.1 he with he | he
      · exact hes e he
      · exact hes' e he
    · rw [told', told, Trace.Tracer.observeAll, Trace.Tracer.observeAll, Trace.Tracer.observeAll,
        List.foldl_append]

namespace Run

open Machine (Advances)

variable {α : Type} {depth : Nat}

theorem along_onStore {x : StoreM α} (hx : Along Store.SameLimit x) : Along (Advances depth) (onStore x) :=
  fun m => ends_onStore (hx m.store) fun _ h => ⟨h, [], by simp, rfl⟩

theorem along_onHeap {x : HeapM α} (hx : Along Heap.SameLimit x) : Along (Advances depth) (onStore (Store.onHeap x)) :=
  along_onStore (Store.along_onHeap hx)

theorem along_observe {e : Event} (he : e.Within depth) : Along (Advances depth) (observe e) := by
  intro m
  refine .ok ⟨rfl, [e], ?_, rfl⟩
  intro e' he'
  rw [List.mem_singleton.1 he']
  exact he

theorem along_loadGlobal {R : Machine → Machine → Prop} [IsPreorder Machine R] (l : Library)
    (x : String) : Along R (loadGlobal l x) := by
  intro m
  unfold loadGlobal
  cases m.globals.lookup l x with
  | ok v => exact .ok (refl m)
  | error e => exact .error (refl m)

theorem along_storeGlobal (x : String) (v : Value) : Along (Advances depth) (storeGlobal x v) := by
  rintro ⟨store, globals, tracer⟩
  unfold storeGlobal
  by_cases frozen : globals.frozen
  · simp only [if_pos frozen]
    exact .error (refl _)
  · simp only [if_neg frozen]
    exact .ok ⟨rfl, [], by simp, rfl⟩

theorem along_checkDepth {R : Machine → Machine → Prop} [IsPreorder Machine R] (d : Nat) : Along R (checkDepth d) := by
  intro m
  unfold checkDepth
  cases m.store.heap.meter.checkDepth d with
  | ok _ => exact .ok (refl m)
  | error use => exact .error (refl m)

theorem along_collectIfDue : Along (Advances depth) collectIfDue := by
  rintro ⟨⟨heap, lexicon⟩, globals, tracer⟩
  refine .ok ⟨?_, [], by simp, rfl⟩
  simp only [Machine.depthLimit]
  by_cases due : heap.collectionDue
  · rw [if_pos due]
    exact heap.sameLimit_collect globals.roots
  · rw [if_neg due]

theorem Primitive.along_advances {x : Run α} (h : Primitive depth α x) : Along (Advances depth) x := by
  cases h with
  | onStore hx => exact along_onStore (hx.along Store.Primitive.along_sameLimit)
  | @observe e aside =>
    refine along_observe ?_
    cases e with
    | makeFunction made defaults captures => exact trivial
    | outerLoad x levels => exact trivial
    | _ => cases aside
  | begin kind => exact (along_onHeap Heap.along_tick).bind fun _ => along_observe rfl
  | loadGlobal l x => exact along_loadGlobal l x
  | storeGlobal x v => exact along_storeGlobal x v

end Run

namespace Request

/-- A request that does with the plain operations on the heap and runs no host function. -/
def Plain {α : Type} : Request α → Prop
  | .function .. => False
  | .checkDepth => False
  | .newFrame _ => False
  | .native .. => False
  | .collectIfDue => False
  | _ => True

theorem composed_perform {P : (α : Type) → HeapM α → Prop} [Heap.IncludesPlain P] (l : Library)
    (depth : Nat) {α : Type} {r : Request α} (hr : r.Plain) : Composed (Run.Over P depth) (r.perform l depth) := by
  have inspects {β : Type} {f : Heap → Attempt β} (hf : Looks f) :
      Composed (Run.Over P depth) (Run.inspect f) :=
    Run.composed_inspect hf
  cases r with
  | load frame x => exact (site l depth frame).composed_load x
  | store frame x v => exact (site l depth frame).composed_store x v
  | list vs => exact Run.composed_make rfl
  | tuple vs => exact Run.composed_make rfl
  | key v => exact inspects v.looks_key
  | dict entries => exact Run.composed_makeDict entries false
  | item container index => exact inspects (container.looks_item index)
  | setItem container index value =>
    exact Run.composed_onHeap (container.composed_setItem index value)
  | attr object x => exact Run.composed_onStore (Store.composed_readAttr l object x)
  | binary op left right => exact Run.composed_onHeap (left.composed_binary op right)
  | augment op current operand => exact Run.composed_onHeap (current.composed_augment op operand)
  | compare op left right => exact inspects (left.looks_holds op right)
  | negate v => exact inspects (fun _ _ => by rfl)
  | truthy v => exact inspects (fun _ _ => by rfl)
  | items v => exact inspects (fun _ _ => by rfl)
  | keywords v => exact Run.composed_onStore (Store.composed_spreadKeywords v)
  | begin kind => exact (site l depth none).composed_begin kind
  | fail cause => exact .raise cause
  | callee v => exact inspects (fun _ _ => by rfl)
  | definition id => exact inspects (.const _)
  | bind f c args => exact Run.composed_onHeap (f.signature.composed_bind f.name c.defaults args)
  | entry id => exact inspects (.const _)
  | unfold v => exact inspects (v.looks_unfold l)
  | _ => exact hr.elim

/-- What a request does is no more than any code does between two calls. -/
theorem along_perform (l : Library) (depth : Nat) {α : Type} (r : Request α) :
    Along (Machine.Advances depth) (r.perform l depth) := by
  have composed {β : Type} {x : Run β} (h : Composed (Run.Primitive depth) x) :
      Along (Machine.Advances depth) x :=
    h.along Run.Primitive.along_advances
  cases r with
  | function frame id defaults => exact composed ((site l depth frame).composed_makeFunction id defaults)
  | checkDepth => exact Run.along_checkDepth depth
  | newFrame f => exact composed (Run.composed_onHeap (Heap.composed_allocate _))
  | native id receiver args =>
    refine (composed (Run.composed_inspect (.const _))).bind fun e => ?_
    exact Run.along_onStore (HostCode.along_run Store.Primitive.along_sameLimit l _ _ [])
  | collectIfDue => exact Run.along_collectIfDue
  | _ => exact composed (composed_perform l depth trivial)

end Request

/-! ## Failures -/

/-- The failure has not left a call. -/
def Failure.Fresh : Failure → Prop
  | .raised e => e.traceback = #[]
  | .broken .. => True

theorem Flaw.fresh (f : Flaw) : f.failure.Fresh := by
  cases f with
  | raised cause => rfl
  | broken table index => exact trivial

/-- A computation has ended, and if it failed, its failure has not left a call. -/
inductive FailsAnew.Ends {σ α : Type} : EStateM.Result Failure σ α → Prop where
  | ok {a : α} {s : σ} : Ends (.ok a s)
  | error {f : Failure} {s : σ} (fresh : f.Fresh) : Ends (.error f s)

/-- All runs of the computation end so. -/
def FailsAnew {σ α : Type} (x : EStateM Failure σ α) : Prop := ∀ s, FailsAnew.Ends (x s)

namespace FailsAnew

variable {σ α β : Type}

theorem bind {x : EStateM Failure σ α} {g : α → EStateM Failure σ β} (hx : FailsAnew x)
    (hg : ∀ a, FailsAnew (g a)) : FailsAnew (x >>= g) := by
  intro s
  have first := hx s
  show Ends (EStateM.bind x g s)
  unfold EStateM.bind
  generalize x s = r at first ⊢
  cases first with
  | ok => exact hg _ _
  | error fresh => exact .error fresh

theorem congruence : Congruence fun _ (x _ : EStateM Failure σ _) => FailsAnew x :=
  ⟨fun _ _ => .ok, fun _ _ => .error rfl, bind⟩

theorem of_composed {P : (α : Type) → EStateM Failure σ α → Prop} {x : EStateM Failure σ α}
    (h : Composed P x) (prim : ∀ {α : Type} {x : EStateM Failure σ α}, P α x → FailsAnew x) : FailsAnew x :=
  h.related congruence prim

end FailsAnew

namespace Heap

theorem failsAnew_allocate (c : Cell) : FailsAnew (allocate c) := by
  intro h
  unfold allocate place
  split
  · exact .error rfl
  · split
    · split
      · exact .ok
      · exact .error trivial
    · exact .ok

theorem failsAnew_tick : FailsAnew Run.tick := by
  rintro ⟨slots, free, meter, sinceCollection⟩
  simp only [Run.tick]
  split
  · exact .error rfl
  · exact .ok

theorem Primitive.failsAnew {α : Type} {x : HeapM α} (h : Primitive α x) : FailsAnew x := by
  cases h with
  | @inspect _ f looks =>
    intro h
    unfold Heap.inspect
    cases f h with
    | ok a => exact .ok
    | error e => exact .error e.fresh
  | allocate c => exact failsAnew_allocate c
  | update a f => exact fun _ => .ok

end Heap

theorem Store.failsAnew_onHeap {α : Type} {x : HeapM α} (hx : FailsAnew x) : FailsAnew (onHeap x) := by
  rintro ⟨heap, lexicon⟩
  have ends := hx heap
  simp only [onHeap]
  generalize x heap = r at ends ⊢
  cases ends with
  | ok => exact .ok
  | error fresh => exact .error fresh

theorem Store.Primitive.failsAnew {α : Type} {x : StoreM α} (h : Primitive α x) : FailsAnew x := by
  cases h with
  | onHeap hx => exact failsAnew_onHeap (.of_composed hx Heap.Primitive.failsAnew)
  | learn w => exact fun _ => .ok

namespace Run

variable {α : Type} {depth : Nat}

theorem failsAnew_onStore {x : StoreM α} (hx : FailsAnew x) : FailsAnew (onStore x) := by
  rintro ⟨store, globals, tracer⟩
  have ends := hx store
  simp only [onStore]
  generalize x store = r at ends ⊢
  cases ends with
  | ok => exact .ok
  | error fresh => exact .error fresh

theorem Primitive.failsAnew {x : Run α} (h : Primitive depth α x) : FailsAnew x := by
  cases h with
  | onStore hx => exact failsAnew_onStore (.of_composed hx Store.Primitive.failsAnew)
  | observe aside => exact fun _ => .ok
  | begin kind =>
    exact (failsAnew_onStore (Store.failsAnew_onHeap Heap.failsAnew_tick)).bind fun _ _ => .ok
  | loadGlobal l x =>
    intro m
    unfold Run.loadGlobal
    cases m.globals.lookup l x with
    | ok v => exact .ok
    | error e => exact .error e.fresh
  | storeGlobal x v =>
    rintro ⟨store, globals, tracer⟩
    unfold Run.storeGlobal
    by_cases frozen : globals.frozen
    · simp only [if_pos frozen]
      exact .error rfl
    · simp only [if_neg frozen]
      exact .ok

end Run

theorem Library.mem_of_native {l : Library} {id : NativeId} {e : NativeEntry} (h : l.native id = .ok e) :
    e ∈ l.natives := by
  unfold Library.native at h
  split at h
  · rename_i found
    cases h
    exact Array.mem_of_getElem? found
  · cases h

namespace Request

end Request

end Scriptlet
