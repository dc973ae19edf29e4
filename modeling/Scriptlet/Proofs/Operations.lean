import Scriptlet.Proofs.Binding
import Scriptlet.Proofs.Inspection

/-!
# Operations on matching stores

What programs and host functions do to the store is built from a few steps: objects are looked at and made,
containers that are not frozen are changed, words are learned. A simulation that allows these steps allows
every operation built from them: item assignment, arithmetic, attributes, keywords, argument binding, the
building of host objects and all host functions.
-/

namespace Scriptlet

open Call (Args)
open Fault (Cause)
open Heap (Cell)

theorem Store.onHeap_allocate (c : Cell) : onHeap (do return Value.ref (← Heap.allocate c)) = Store.allocate c := by
  rw [onHeap_bind]
  rfl

/-- The steps that a simulation of stores allows. In each world, `view` says what stands for each other and
`mutable` which containers may be changed. -/
structure StoreRules {W : Type} (C : Simulation Store Store W) (view : W → Matching)
    (mutable : W → Address → Prop) (l l' : Library) : Prop where
  view_le : ∀ {w w'}, C.le w w' → (view w).Le (view w')
  alike : ∀ {w s t}, C.states w s t → Alike (view w) s.heap t.heap
  serves : ∀ w, l.Serves l' (view w)
  mutable_of : ∀ {w s t a}, C.states w s t → s.heap.MutableAt a → mutable w a
  place : ∀ {w c d}, (view w).plain c d →
    C.Runs w (fun w' => (view w').object) (Store.onHeap (Heap.allocate c))
      (Store.onHeap (Heap.allocate d))
  edit : ∀ {w a b e f}, mutable w a → (view w).object a b → (view w).edit e f →
    C.Runs w (fun _ _ _ => True) (Store.onHeap (modify fun h => h.edit a e))
      (Store.onHeap (modify fun h => h.edit b f))
  learn : ∀ {w} (x : String),
    C.Runs w (fun w' _ _ => (view w').word x) (Store.learn x) (Store.learn x)

namespace StoreRules

variable {W : Type} {C : Simulation Store Store W} {view : W → Matching}
  {mutable : W → Address → Prop} {l l' : Library} {w : W}

theorem value_mono (rules : StoreRules C view mutable l l') {u v : W} (h : C.le u v) {a b : Value}
    (hab : (view u).value a b) : (view v).value a b :=
  hab.mono (rules.view_le h)

/-- Looking at matching stores. -/
theorem inspect (rules : StoreRules C view mutable l l') {α β : Type} {R : W → α → β → Prop}
    {f : Heap → Attempt α} {g : Heap → Attempt β}
    (h : ∀ s t, C.states w s t → Alike (view w) s.heap t.heap → Agree (R w) (f s.heap) (g t.heap)) :
    C.Runs w R (Store.inspect f) (Store.inspect g) := by
  rintro ⟨h₁, lex₁⟩ ⟨h₂, lex₂⟩ hst
  have agree := h _ _ hst (rules.alike hst)
  simp only [Store.inspect, Store.onHeap, Heap.inspect]
  generalize f h₁ = x at agree ⊢
  generalize g h₂ = y at agree ⊢
  cases agree with
  | ok hab => exact .ok (C.refl w) hst hab
  | raised e => exact .raised _ (C.refl w) hst

theorem allocate (rules : StoreRules C view mutable l l') {c d : Cell} (h : (view w).plain c d) :
    C.Runs w (fun w' => (view w').value) (Store.allocate c) (Store.allocate d) :=
  (rules.place h).bind fun _ _ _ _ hab => .pure (.ref hab)

/-- Raising an error that names the type of a value. -/
theorem raise_type (rules : StoreRules C view mutable l l') {α β : Type} {R : W → α → β → Prop}
    {v v' : Value} (hv : (view w).value v v') (cause : ValueType → Cause) :
    C.Runs w R (do raise (cause (← Store.inspect v.type)))
      (do raise (cause (← Store.inspect v'.type))) :=
  (rules.inspect (R := fun _ => @Eq ValueType) fun _ _ _ A => A.type hv).bind
    fun _ _ _ _ ht => ht ▸ .raise _

/-! ## Operations of the language -/

section operations

variable {v v' u u' z z' : Value}

theorem setItem (rules : StoreRules C view mutable l l') (hv : (view w).value v v')
    (hu : (view w).value u u') (hz : (view w).value z z') :
    C.Runs w (fun _ _ _ => True) (Store.onHeap (v.setItem u z)) (Store.onHeap (v'.setItem u' z')) := by
  have type := rules.raise_type (R := fun _ (_ _ : Unit) => True) hv .noItemAssignment
  cases hv with
  | @ref a b hab =>
    simp only [Value.setItem, Store.onHeap_bind]
    refine (rules.inspect (R := fun w' e f => (view w').edit e f ∧ mutable w' a) ?_).bind
      fun w' e f hw' hef => ?_
    · intro s t hst A
      obtain ⟨c, d, hc, hd, hcd⟩ := A.object hab
      simp only [Heap.read_of_cell? hc, Heap.read_of_cell? hd]
      exact (A.itemEdit hcd hu hz).imp fun e f h => ⟨h.1, rules.mutable_of hst ⟨c, hc, h.2⟩⟩
    · exact rules.edit hef.2 ((rules.view_le hw').object hab) hef.1
  | _ =>
    simp only [Value.setItem, Store.onHeap_bind]
    exact type

theorem combine (rules : StoreRules C view mutable l l') (op : Program.Operator)
    (hv : (view w).value v v') (hu : (view w).value u u') :
    C.Runs w (fun w' => (view w').value) (Store.onHeap (v.combine op u))
      (Store.onHeap (v'.combine op u')) := by
  simp only [Value.combine, Store.onHeap_bind _ fun c => do return Value.ref (← Heap.allocate c),
    Store.onHeap_allocate]
  refine (rules.inspect (R := fun w => (view w).plain) fun _ _ _ A => A.combined op hv hu).bind
    fun w' c d _ hcd => ?_
  exact rules.allocate hcd

theorem binary (rules : StoreRules C view mutable l l') (op : Program.Operator)
    (hv : (view w).value v v') (hu : (view w).value u u') :
    C.Runs w (fun w' => (view w').value) (Store.onHeap (v.binary op u))
      (Store.onHeap (v'.binary op u')) := by
  have made := rules.combine op hv hu
  cases hv with
  | int m =>
    cases hu with
    | int n => exact rules.inspect fun _ _ _ _ => Alike.agree_ofArithmetic _ _
    | _ => exact made
  | _ => exact made

theorem augment (rules : StoreRules C view mutable l l') (op : Program.Operator)
    (hv : (view w).value v v') (hu : (view w).value u u') :
    C.Runs w (fun w' => (view w').value) (Store.onHeap (v.augment op u))
      (Store.onHeap (v'.augment op u')) := by
  simp only [Value.augment, Store.onHeap_bind]
  refine (rules.inspect
    (R := fun w => Option.Rel fun p q =>
      (view w).object p.1 q.1 ∧ (view w).values p.2 q.2 ∧ mutable w p.1) ?_).bind
    fun w' p q hw' hpq => ?_
  · intro s t hst A
    refine (A.extension op hv hu).imp fun p q hpq => ?_
    cases hpq with
    | none => exact .none
    | some h => exact .some ⟨h.1, h.2.1, rules.mutable_of hst h.2.2⟩
  · cases hpq with
    | none => exact rules.binary op (rules.value_mono hw' hv) (rules.value_mono hw' hu)
    | some h =>
      simp only [Store.onHeap_bind]
      refine (rules.edit h.2.2 h.1 (.extend h.2.1)).bind fun w'' _ _ hw'' _ => ?_
      exact .pure (rules.value_mono (C.trans hw' hw'') hv)

theorem readAttr (rules : StoreRules C view mutable l l') (hv : (view w).value v v') (attr : String) :
    C.Runs w (fun w' => (view w').value) (Store.readAttr l v attr) (Store.readAttr l' v' attr) := by
  refine (rules.inspect (R := fun w => Option.Rel (view w).value)
    fun _ _ _ A => A.field? hv attr).bind fun w₁ o o' hw₁ ho => ?_
  cases ho with
  | some h => exact .pure h
  | none =>
    have hv := rules.value_mono hw₁ hv
    refine (rules.inspect (R := fun _ => @Eq ValueType) fun _ _ _ A => A.type hv).bind
      fun w₂ type _ hw₂ ht => ?_
    subst ht
    have same : l'.method? type attr = l.method? type attr := by
      rw [Library.method?, (rules.serves w₂).host.methods, Library.method?]
    rw [same]
    cases hm : l.method? type attr with
    | none => exact .raise _
    | some id =>
      exact rules.allocate ⟨.method (rules.value_mono hw₂ hv) ((rules.serves w₂).method hm),
        Heap.CellKind.noConfusion⟩

theorem keywordsOf (rules : StoreRules C view mutable l l') {es fs : List (Value × Value)}
    (h : List.Forall₂ (fun e f => (view w).value e.1 f.1 ∧ (view w).value e.2 f.2) es fs) :
    C.Runs w (fun w' => (view w').bindings) (Store.keywordsOf es) (Store.keywordsOf fs) := by
  induction es generalizing w fs with
  | nil =>
    cases h
    exact .pure .nil
  | cons e es ih =>
    cases h with
    | @cons _ f _ fs he h =>
      refine (rules.inspect (R := fun _ => @Eq String) fun _ _ _ A => A.asKeyword he.1).bind
        fun w₁ x _ hw₁ hx => ?_
      subst hx
      refine (rules.learn x).bind fun w₂ _ _ hw₂ known => ?_
      have hw := C.trans hw₁ hw₂
      refine (ih (h.imp fun _ _ h => ⟨rules.value_mono hw h.1, rules.value_mono hw h.2⟩)).bind
        fun w₃ kvs kvs' hw₃ hk => ?_
      refine .pure (.cons ⟨rfl, (rules.view_le hw₃).word known, ?_⟩ hk)
      exact rules.value_mono (C.trans hw hw₃) he.2

theorem spreadKeywords (rules : StoreRules C view mutable l l') (hv : (view w).value v v') :
    C.Runs w (fun w' => (view w').bindings) (Store.spreadKeywords v) (Store.spreadKeywords v') :=
  (rules.inspect
    (R := fun w => List.Forall₂ fun e f => (view w).value e.1 f.1 ∧ (view w).value e.2 f.2)
    fun _ _ _ A => A.spreadKeywords hv).bind fun _ _ _ _ h => rules.keywordsOf h

end operations

/-! ## Binding arguments -/

section binding

open Code (Signature)

variable {s : Signature} {callee : String} {ds ds' : List Value} {args args' : Args}

theorem collectRest (rules : StoreRules C view mutable l l') (hw : ∀ x ∈ s.names, (view w).word x)
    (h : (view w).args args args') :
    C.Runs w (fun w' => (view w').bindings) (Store.onHeap (s.collectRest args))
      (Store.onHeap (s.collectRest args')) := by
  unfold Signature.collectRest
  cases hr : s.rest with
  | none => exact .pure .nil
  | some x =>
    have hx : (view w).word x := hw x (by simp [Signature.names, hr])
    have hi : (view w).values (args.positional.drop s.positional.length).toArray.toList
        (args'.positional.drop s.positional.length).toArray.toList :=
      List.forall₂_drop _ h.positional
    simp only [Store.onHeap_bind]
    refine (rules.place ⟨.tuple hi, Heap.CellKind.noConfusion⟩).bind fun w' a b hw' hab => ?_
    exact .pure (.cons ⟨rfl, (rules.view_le hw').word hx, .ref hab⟩ .nil)

theorem collectKeywords (rules : StoreRules C view mutable l l')
    (hw : ∀ x ∈ s.names, (view w).word x) {es fs : List (String × Value)} (h : (view w).bindings es fs) :
    C.Runs w (fun w' => (view w').bindings) (Store.onHeap (s.collectKeywords es))
      (Store.onHeap (s.collectKeywords fs)) := by
  unfold Signature.collectKeywords
  cases hk : s.keywords with
  | none => exact .pure .nil
  | some x =>
    have hx : (view w).word x := hw x (by simp [Signature.names, hk])
    simp only [Store.onHeap_bind]
    refine (rules.place ⟨.dict false (.ofList (List.rel_map ?_ h)), Heap.CellKind.noConfusion⟩).bind
      fun w' a b hw' hab => ?_
    · exact fun e f he => ⟨congrArg Key.str he.1, he.1 ▸ .text he.2.1, he.2.2⟩
    · exact .pure (.cons ⟨rfl, (rules.view_le hw').word hx, .ref hab⟩ .nil)

/-- Matching arguments are bound to matching variables. -/
theorem bind (rules : StoreRules C view mutable l l') (hs : s.Numbered)
    (hw : ∀ x ∈ s.names, (view w).word x) (hd : (view w).values ds ds')
    (hlen : ds.length = s.defaultsCount) (h : (view w).args args args') :
    C.Runs w (fun w' => (view w').bindings) (Store.onHeap (s.bind callee ds args))
      (Store.onHeap (s.bind callee ds' args')) := by
  have hkeys : args.keywords.isEmpty = args'.keywords.isEmpty := by
    have := h.keywords
    generalize args.keywords = k at this ⊢
    generalize args'.keywords = k' at this ⊢
    cases this <;> rfl
  unfold Signature.bind
  rw [hkeys]
  split
  · exact rules.inspect (R := fun w => (view w).bindings)
      fun _ _ _ _ => agree_bindPositional hw hd hlen h.positional
  · simp only [Signature.bindFully, Store.onHeap_bind, List.splitAt_eq]
    refine (rules.inspect
      (R := fun w p q => (view w).bindings p.1 q.1 ∧ (view w).bindings p.2 q.2)
      fun _ _ _ _ => agree_settle hs hw hd hlen h).bind fun w₁ p q hw₁ hpq => ?_
    have le₁ := rules.view_le hw₁
    refine (rules.collectRest (fun x hx => le₁.word (hw x hx)) (h.mono le₁)).bind
      fun w₂ rest rest' hw₂ hrest => ?_
    have le₂ := rules.view_le hw₂
    refine (rules.collectKeywords (fun x hx => le₂.word (le₁.word (hw x hx)))
      (hpq.2.mono le₂)).bind fun w₃ keys keys' hw₃ hkeys => ?_
    have le₃ := rules.view_le hw₃
    have named := Matching.bindings.mono (le₂.trans le₃) hpq.1
    exact .pure (List.rel_append (List.rel_append (List.rel_append (List.forall₂_take _ named)
      (hrest.mono le₃)) (List.forall₂_drop _ named)) hkeys)

end binding

end StoreRules

end Scriptlet
