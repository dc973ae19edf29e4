import Scriptlet.Module.Entry
import Scriptlet.Proofs.Operations

/-!
# Host objects and host functions on matching stores

Host objects become matching values, and a host function that is called with matching values gives back
matching values: it names values by handles and can depend on nothing but what its operations show.
-/

namespace Scriptlet

open Call (Args)
open Fault (Cause)
open Heap (Cell)

/-- Two shown results are related, or show the same exception. -/
inductive Shown {α β : Type} (R : α → β → Prop) : Except Cause α → Except Cause β → Prop where
  | ok {a : α} {b : β} (h : R a b) : Shown R (.ok a) (.ok b)
  | error (cause : Cause) : Shown R (.error cause) (.error cause)

theorem Shown.eq {α : Type} {a b : Except Cause α} (h : Shown Eq a b) : a = b := by
  cases h with
  | ok h => rw [h]
  | error cause => rfl

/-- Two calls of a host function match. -/
structure Matching.nativeCall (M : Matching) (c d : NativeCall) : Prop where
  name : c.name = d.name
  receiver : c.receiver.Rel M.value d.receiver
  args : M.args c.args d.args

namespace Matching

variable {M N : Matching} {c d : NativeCall}

theorem nativeCall.mono (h : M.Le N) (hcd : M.nativeCall c d) : N.nativeCall c d :=
  ⟨hcd.name, rel_imp (value.mono h) hcd.receiver, hcd.args.mono h⟩

/-- A value that may be missing stands for none if it is. -/
theorem value_getD {o o' : Option Value} (h : o.Rel M.value o') : M.value (o.getD .none) (o'.getD .none) := by
  cases h with
  | none => exact .none
  | some hv => exact hv

theorem values.getElem? {vs ws : List Value} (h : M.values vs ws) (i : Nat) : (vs[i]?).Rel M.value ws[i]? := by
  induction h generalizing i with
  | nil => exact .none
  | cons hv _ ih =>
    cases i with
    | zero => exact .some hv
    | succ i => exact ih i

theorem bindings.lookup {es fs : List (String × Value)} (h : M.bindings es fs) (x : String) :
    (es.lookup x).Rel M.value (fs.lookup x) := by
  induction h with
  | nil => exact .none
  | @cons e f _ _ he _ ih =>
    obtain ⟨y, v⟩ := e
    obtain ⟨z, u⟩ := f
    obtain ⟨rfl, -, hv⟩ := he
    simp only [List.lookup_cons]
    cases x == y
    · exact ih
    · exact .some hv

theorem bindings.names_eq {es fs : List (String × Value)} (h : M.bindings es fs) :
    es.map Prod.fst = fs.map Prod.fst := by
  have heq : List.Forall₂ Eq (es.map Prod.fst) (fs.map Prod.fst) :=
    List.rel_map (fun _ _ he => he.1) h
  rwa [List.forall₂_eq_eq_eq] at heq

theorem nativeCall.shape_eq (h : M.nativeCall c d) : c.shape = d.shape := by
  have hr : c.receiver.isSome = d.receiver.isSome := by
    have := h.receiver
    generalize c.receiver = r at this ⊢
    generalize d.receiver = r' at this ⊢
    cases this <;> rfl
  simp only [NativeCall.shape, h.name, hr, h.args.positional.length_eq, h.args.keywords.names_eq]

theorem nativeCall.value (h : M.nativeCall c d) {vs ws : List Value} (hv : M.values vs ws)
    (handle : Handle) : M.value (c.value vs handle) (d.value ws handle) := by
  cases handle with
  | none => exact .none
  | bool b => exact .bool b
  | int n => exact .int n
  | receiver => exact value_getD h.receiver
  | positional i => exact value_getD (values.getElem? h.args.positional i)
  | keyword x => exact value_getD (h.args.keywords.lookup x)
  | obtained i => exact value_getD (values.getElem? hv i)

theorem value.int?_eq {v w : Value} (h : M.value v w) : v.int? = w.int? := by
  cases h <;> rfl

theorem nativeCall.arity (h : M.nativeCall c d) (count : Nat) : Agree (@Eq Unit) (c.arity count) (d.arity count) := by
  have hd : c.args.arityDefect? c.name count = d.args.arityDefect? d.name count := by
    have hk := h.args.keywords
    simp only [Args.arityDefect?, h.name, h.args.positional.length_eq]
    generalize c.args.keywords = k at hk ⊢
    generalize d.args.keywords = k' at hk ⊢
    cases hk with
    | nil => rfl
    | cons he _ => simp only [he.1]
  unfold NativeCall.arity
  rw [hd]
  split
  · exact .raise _
  · exact .ok rfl

/-- What an operation gives is kept under the same handle on both sides. -/
theorem keep {vs ws : List Value} (hv : M.values vs ws) {r q : Except Cause Value} (h : Shown M.value r q) :
    (HostCode.keep vs r).1 = (HostCode.keep ws q).1 ∧
      M.values (HostCode.keep vs r).2 (HostCode.keep ws q).2 := by
  cases h with
  | ok h => exact ⟨by simp [HostCode.keep, hv.length_eq], List.rel_append hv (.cons h .nil)⟩
  | error cause => exact ⟨rfl, hv⟩

end Matching

namespace StoreRules

variable {W : Type} {C : Simulation Store Store W} {view : W → Matching}
  {mutable : W → Address → Prop} {l l' : Library} {w : W}

/-! ## Host objects -/

/-- If each of some objects becomes matching values, so do all of them in a row. -/
theorem mapM_objects (rules : StoreRules C view mutable l l') {f : Object → StoreM Value}
    (hf : ∀ {w} o, C.Runs w (fun w' => (view w').value) (f o) (f o)) (os : List Object) :
    C.Runs w (fun w' => (view w').values) (os.mapM f) (os.mapM f) :=
  Simulation.Runs.mapM (Q := fun _ => Eq) (R := fun w => (view w).value) (fun _ h => h)
    (fun h => rules.value_mono h) (fun o _ _ _ h => h ▸ hf o) (List.forall₂_same.2 fun _ _ => rfl)

/-- A host object becomes matching values. -/
theorem buildWithin (rules : StoreRules C view mutable l l') (n : Nat) (o : Object) :
    C.Runs w (fun w' => (view w').value) (o.buildWithin n) (o.buildWithin n) := by
  induction n generalizing w o with
  | zero => exact .raise _
  | succ n ih =>
    cases o with
    | none => exact .pure .none
    | bool b => exact .pure (.bool b)
    | int i => exact .pure (.int i)
    | string s => exact rules.allocate ⟨.text s, Heap.CellKind.noConfusion⟩
    | list items =>
      refine (rules.mapM_objects ih items).bind fun w' vs ws _ h => ?_
      exact rules.allocate ⟨.list false h, Heap.CellKind.noConfusion⟩
    | tuple items =>
      refine (rules.mapM_objects ih items).bind fun w' vs ws _ h => ?_
      exact rules.allocate ⟨.tuple h, Heap.CellKind.noConfusion⟩
    | dict pairs =>
      refine (Simulation.Runs.foldlM (R := fun w es fs => OrderedMap.Matches (view w).entry es fs)
        (fun p _ w' es fs h => ?_) .empty).bind fun w' es fs _ h => ?_
      · obtain ⟨k, v⟩ := p
        refine (ih k).bind fun w₁ i j hw₁ hij => ?_
        refine (ih v).bind fun w₂ a b hw₂ hab => ?_
        have hij := rules.value_mono hw₂ hij
        refine (rules.inspect (R := fun _ => @Eq Key) fun _ _ _ A => A.key hij).bind
          fun w₃ key _ hw₃ hk => ?_
        subst hk
        have le := rules.view_le (C.trans hw₁ (C.trans hw₂ hw₃))
        exact .pure ((h.imp fun _ _ _ => Matching.entry.mono le).insert
          ⟨rules.value_mono hw₃ hij, rules.value_mono hw₃ hab⟩)
      · exact rules.allocate ⟨.dict false h, Heap.CellKind.noConfusion⟩
    | struct fields =>
      refine (Simulation.Runs.foldlM (R := fun w es fs => OrderedMap.Matches (view w).binding es fs)
        (fun p _ w' es fs h => ?_) .empty).bind fun w' es fs _ h => ?_
      · obtain ⟨x, v⟩ := p
        refine (ih v).bind fun w₁ a b hw₁ hab => ?_
        refine (rules.learn x).bind fun w₂ _ _ hw₂ known => ?_
        have le := rules.view_le (C.trans hw₁ hw₂)
        exact .pure ((h.imp fun _ _ _ => Matching.binding.mono le).insert
          ⟨known, rules.value_mono hw₂ hab⟩)
      · exact rules.allocate ⟨.struct h, Heap.CellKind.noConfusion⟩
    | described text => exact .raise _
    | cycle text => exact .raise _

theorem build (rules : StoreRules C view mutable l l') (o : Object) :
    C.Runs w (fun w' => (view w').value) o.build o.build :=
  rules.buildWithin _ o

/-- The arguments of a call by the host. -/
theorem buildArgs (rules : StoreRules C view mutable l l') (positional : List Object)
    (keywords : List (String × Object)) :
    C.Runs w (fun w' => (view w').args) (Module.buildArgs positional keywords)
      (Module.buildArgs positional keywords) := by
  refine (rules.mapM_objects rules.build positional).bind fun w₁ vs ws hw₁ hv => ?_
  refine (Simulation.Runs.mapM (Q := fun _ => Eq)
    (R := fun w => OrderedMap.EntryMatch (view w).binding) (fun _ h => h)
    (fun h he => ⟨he.1, he.2.mono (rules.view_le h)⟩) (fun p _ w' q hpq => ?_)
    (List.forall₂_same.2 fun _ _ => rfl)).bind fun w₂ es fs hw₂ he => ?_
  · subst hpq
    refine (rules.build p.2).bind fun w₂ v v' hw₂ hv => ?_
    refine (rules.learn p.1).bind fun w₃ _ _ hw₃ known => ?_
    exact .pure ⟨rfl, known, rules.value_mono hw₃ hv⟩
  · exact .pure ⟨hv.mono (rules.view_le hw₂), he⟩

/-! ## Host functions -/

theorem attempt {α β : Type} {R : W → α → β → Prop} {x : StoreM α} {y : StoreM β} (h : C.Runs w R x y) :
    C.Runs w (fun w' => Shown (R w')) (HostCode.attempt x) (HostCode.attempt y) := by
  intro s t hst
  have hxy := h hst
  unfold HostCode.attempt
  generalize x s = r at hxy ⊢
  generalize y t = q at hxy ⊢
  cases hxy with
  | ok le states h => exact .ok le states (.ok h)
  | raised e le states => exact .ok le states (.error e.cause)

theorem editList (rules : StoreRules C view mutable l l') {callee callee' : String}
    (hc : callee = callee') {v v' : Value} (hv : (view w).value v v') {e f : Heap.Edit} (hef : (view w).edit e f) :
    C.Runs w (fun _ => @Eq Unit) (Store.onHeap (v.editList callee e))
      (Store.onHeap (v'.editList callee' f)) := by
  subst hc
  simp only [Value.editList, Store.onHeap_bind]
  refine (rules.inspect (R := fun w a b => (view w).object a b ∧ mutable w a) ?_).bind
    fun w' a b hw' hab => ?_
  · exact fun s t hst A => (A.openList callee hv).imp fun a b h => ⟨h.1, rules.mutable_of hst h.2⟩
  · exact (rules.edit hab.2 hab.1 (hef.mono (rules.view_le hw'))).imp fun _ _ _ _ _ => rfl

/-- Host code with matching values gives back matching values. -/
theorem runHost (rules : StoreRules C view mutable l l') (code : HostCode) {c d : NativeCall}
    (hcd : (view w).nativeCall c d) {vs ws : List Value} (hv : (view w).values vs ws) :
    C.Runs w (fun w' => (view w').value) (code.run l c vs) (code.run l' d ws) := by
  induction code generalizing w vs ws with
  | giveBack v => exact .pure (hcd.value hv v)
  | fail e => exact .throw e
  | requireArity count next ih =>
    refine (attempt (rules.inspect (R := fun _ => @Eq Unit)
      fun _ _ _ _ => hcd.arity count)).bind fun w' r q hw' h => ?_
    have le := rules.view_le hw'
    exact h.eq ▸ ih _ (hcd.mono le) (hv.mono le)
  | typeOf v next ih =>
    refine (rules.inspect (R := fun _ => @Eq ValueType) fun _ _ _ A => A.type (hcd.value hv v)).bind
      fun w' _ _ hw' h => ?_
    have le := rules.view_le hw'
    exact h ▸ ih _ (hcd.mono le) (hv.mono le)
  | textOf v next ih =>
    refine (rules.inspect (R := fun _ => @Eq (Option String))
      fun _ _ _ A => A.text? (hcd.value hv v)).bind fun w' _ _ hw' h => ?_
    have le := rules.view_le hw'
    exact h ▸ ih _ (hcd.mono le) (hv.mono le)
  | intOf v next ih =>
    simp only [HostCode.run, ← (hcd.value hv v).int?_eq]
    exact ih _ hcd hv
  | objectOf v next ih =>
    refine (rules.inspect (R := fun _ => @Eq Object)
      fun _ _ _ A => A.unfold (rules.serves w) (hcd.value hv v)).bind fun w' _ _ hw' h => ?_
    have le := rules.view_le hw'
    exact h ▸ ih _ (hcd.mono le) (hv.mono le)
  | lengthOf v next ih =>
    refine (attempt (rules.inspect (R := fun _ => @Eq Nat)
      fun _ _ _ A => A.length (hcd.value hv v))).bind fun w' _ _ hw' h => ?_
    have le := rules.view_le hw'
    exact h.eq ▸ ih _ (hcd.mono le) (hv.mono le)
  | newValue o next ih =>
    refine (attempt (rules.build o)).bind fun w' r q hw' h => ?_
    have le := rules.view_le hw'
    have kept := Matching.keep (hv.mono le) h
    exact kept.1 ▸ ih _ (hcd.mono le) kept.2
  | newText s next ih =>
    refine (attempt (rules.allocate ⟨.text s, Heap.CellKind.noConfusion⟩)).bind fun w' r q hw' h => ?_
    have le := rules.view_le hw'
    have kept := Matching.keep (hv.mono le) h
    exact kept.1 ▸ ih _ (hcd.mono le) kept.2
  | newStruct next ih =>
    refine (attempt (rules.allocate ⟨.struct (.ofList hcd.args.keywords), Heap.CellKind.noConfusion⟩)).bind
      fun w' r q hw' h => ?_
    have le := rules.view_le hw'
    have kept := Matching.keep (hv.mono le) h
    exact kept.1 ▸ ih _ (hcd.mono le) kept.2
  | push list item next ih =>
    refine (attempt (rules.editList hcd.name (hcd.value hv list)
      (.extend (.cons (hcd.value hv item) .nil)))).bind fun w' r q hw' h => ?_
    have le := rules.view_le hw'
    exact h.eq ▸ ih _ (hcd.mono le) (hv.mono le)
  | clear list next ih =>
    refine (attempt (rules.editList hcd.name (hcd.value hv list) .clear)).bind
      fun w' r q hw' h => ?_
    have le := rules.view_le hw'
    exact h.eq ▸ ih _ (hcd.mono le) (hv.mono le)

theorem runNative (rules : StoreRules C view mutable l l') (f : HostFunction) {c d : NativeCall}
    (hcd : (view w).nativeCall c d) : C.Runs w (fun w' => (view w').value) (f.run l c) (f.run l' d) := by
  unfold HostFunction.run
  rw [hcd.shape_eq]
  exact rules.runHost _ hcd .nil

end StoreRules

end Scriptlet
