import Mathlib.Order.Defs.Unbundled
import Scriptlet.Proofs.Composition

/-!
# Computations along a relation of states

A computation goes along a relation if the state that it ends in is always related to the one that it started in,
whether or not it fails. To know this of all operations it is enough to know it of the primitive ones.
-/

namespace Scriptlet

open Fault (Cause)

variable {R : Heap → Heap → Prop}

/-! ## Failures as results -/

namespace Run

variable {σ α : Type}

/-- Shows all failures as results. -/
def caught (x : EStateM Failure σ α) : EStateM Failure σ (Except Failure α) := fun s =>
  match x s with
  | .ok a s => .ok (.ok a) s
  | .error e s => .ok (.error e) s

/-- Ends with a result or with what is made of a failure. -/
def finish (f : Failure → Failure) : Except Failure α → EStateM Failure σ α
  | .ok a => pure a
  | .error e => throw (f e)

theorem guarded_eq (name : String) (body : EStateM Failure σ Value) (cleanUp : EStateM Failure σ Unit) :
    guarded name body cleanUp = caught body >>= fun r => cleanUp >>= fun _ => finish (·.leaving name) r := by
  funext s
  show _ = EStateM.bind (caught body) _ s
  unfold guarded EStateM.bind caught
  cases body s <;> rfl

end Run

/-- What is shown of a failure as the result of an operation. -/
def HostCode.shown {σ α : Type} : Except Failure α → EStateM Failure σ (Except Cause α)
  | .ok a => pure (.ok a)
  | .error (.raised e) => pure (.error e.cause)
  | .error e => throw e

theorem HostCode.attempt_eq {σ α : Type} (x : EStateM Failure σ α) : attempt x = Run.caught x >>= shown := by
  funext s
  show _ = EStateM.bind (Run.caught x) shown s
  unfold attempt EStateM.bind Run.caught
  rcases x s with _ | ⟨_ | _, _⟩ <;> rfl

/-! ## Computations along a relation -/

/-- A computation that started in `s` has ended in a state that is related to it. -/
inductive Along.Ends {σ α : Type} (R : σ → σ → Prop) (s : σ) : EStateM.Result Failure σ α → Prop where
  | ok {a : α} {s' : σ} (h : R s s') : Ends R s (.ok a s')
  | error {f : Failure} {s' : σ} (h : R s s') : Ends R s (.error f s')

/-- All runs of the computation end so. -/
def Along {σ α : Type} (R : σ → σ → Prop) (x : EStateM Failure σ α) : Prop := ∀ s, Along.Ends R s (x s)

namespace Along

variable {σ α β : Type} {R : σ → σ → Prop} [IsPreorder σ R]

theorem Ends.from_rel {s s₁ : σ} {r : EStateM.Result Failure σ α} (h : R s s₁) (hr : Ends R s₁ r) : Ends R s r := by
  cases hr with
  | ok h' => exact .ok (IsTrans.trans _ _ _ h h')
  | error h' => exact .error (IsTrans.trans _ _ _ h h')

omit [IsPreorder σ R] in
theorem Ends.imp {S : σ → σ → Prop} {s t : σ} {r : EStateM.Result Failure σ α} (h : Ends R s r)
    (hRS : ∀ s', R s s' → S t s') : Ends S t r := by
  cases h with
  | ok h => exact .ok (hRS _ h)
  | error h => exact .error (hRS _ h)

theorem pure (a : α) : Along R (Pure.pure a : EStateM Failure σ α) := fun s => .ok (refl s)

theorem throw (f : Failure) : Along R (MonadExcept.throw f : EStateM Failure σ α) := fun s => .error (refl s)

theorem raise (cause : Cause) : Along R (Scriptlet.raise cause : EStateM Failure σ α) := throw _

theorem bind {x : EStateM Failure σ α} {g : α → EStateM Failure σ β} (hx : Along R x)
    (hg : ∀ a, Along R (g a)) : Along R (x >>= g) := by
  intro s
  have first := hx s
  show Ends R s (EStateM.bind x g s)
  unfold EStateM.bind
  generalize x s = r at first ⊢
  cases first with
  | ok h => exact (hg _ _).from_rel h
  | error h => exact .error h

theorem congruence : Congruence fun _ (x _ : EStateM Failure σ _) => Along R x :=
  ⟨pure, raise, bind⟩

theorem mapM {f : α → EStateM Failure σ β} (hf : ∀ a, Along R (f a)) (as : List α) : Along R (as.mapM f) :=
  congruence.mapM (g := f) hf as

theorem foldlM {f : β → α → EStateM Failure σ β} (hf : ∀ b a, Along R (f b a)) (as : List α) (b : β) :
    Along R (as.foldlM f b) :=
  congruence.foldlM (g := f) hf as b

omit [IsPreorder σ R] in
theorem caught {x : EStateM Failure σ α} (hx : Along R x) : Along R (Run.caught x) := by
  intro s
  have moved := hx s
  unfold Run.caught
  generalize x s = r at moved ⊢
  cases moved with
  | ok h => exact .ok h
  | error h => exact .ok h

theorem finish (f : Failure → Failure) (r : Except Failure α) : Along R (Run.finish f r) := by
  cases r with
  | ok a => exact pure a
  | error e => exact throw (f e)

theorem attempt {x : EStateM Failure σ α} (hx : Along R x) : Along R (HostCode.attempt x) := by
  rw [HostCode.attempt_eq]
  refine hx.caught.bind fun r => ?_
  rcases r with (e | e) | a
  · exact pure _
  · exact throw _
  · exact pure _

/-- A call goes along what its body and the cleaning up after it go along. -/
theorem guarded (name : String) {body : EStateM Failure σ Value} {cleanUp : EStateM Failure σ Unit}
    (inner : Along R body) (after : Along R cleanUp) : Along R (Run.guarded name body cleanUp) := by
  rw [Run.guarded_eq]
  exact inner.caught.bind fun r => after.bind fun _ => finish _ r

end Along

/-- What is put together from computations along a relation goes along it. -/
theorem Composed.along {σ α : Type} {P : (α : Type) → EStateM Failure σ α → Prop} {R : σ → σ → Prop}
    [IsPreorder σ R] (prim : ∀ {α : Type} {x : EStateM Failure σ α}, P α x → Along R x)
    {x : EStateM Failure σ α} (h : Composed P x) : Along R x :=
  h.related Along.congruence prim

theorem Heap.along_inspect {α : Type} [IsPreorder Heap R] (f : Heap → Attempt α) : Along R (inspect f) := by
  intro h
  unfold inspect
  cases f h with
  | ok a => exact .ok (refl h)
  | error e => exact .error (refl h)

/-- Freeing some objects goes along what freeing one goes along. -/
theorem Heap.rel_discards [IsPreorder Heap R] (one : ∀ h a, R h (discard h a))
    (dead : List Address) (h : Heap) : R h (dead.foldl discard h) := by
  induction dead generalizing h with
  | nil => exact refl h
  | cons a dead ih => exact IsTrans.trans _ _ _ (one h a) (ih (h.discard a))

/-- The release of a frame goes along what freeing one object goes along. -/
theorem Heap.along_releaseFrame [IsPreorder Heap R]
    (one : ∀ h a, R h (discard h a)) (a : Address) : Along R (releaseFrame a) := by
  intro h
  unfold releaseFrame
  by_cases hi : h.slots.size ≤ a.index
  · rw [if_pos hi]
    exact .error (refl h)
  · rw [if_neg hi]
    split
    · exact .ok (one h a)
    · exact .ok (refl h)

/-! ## The store -/

namespace Store

/-- The heaps of the two stores are related. -/
def Via (R : Heap → Heap → Prop) (s s' : Store) : Prop := R s.heap s'.heap

instance (R : Heap → Heap → Prop) [IsPreorder Heap R] : IsPreorder Store (Via R) where
  refl s := refl s.heap
  trans _ _ _ h h' := IsTrans.trans (r := R) _ _ _ h h'

variable {P : (α : Type) → HeapM α → Prop} {α : Type} {R : Heap → Heap → Prop}

theorem along_onHeap {x : HeapM α} (hx : Along R x) : Along (Via R) (onHeap x) := by
  rintro ⟨heap, lexicon⟩
  have moved := hx heap
  simp only [onHeap]
  generalize x heap = r at moved ⊢
  cases moved with
  | ok h => exact .ok h
  | error h => exact .error h

theorem Over.along [IsPreorder Heap R] (heap : ∀ {α : Type} {x : HeapM α}, P α x → Along R x)
    {x : StoreM α} (h : Over P α x) : Along (Via R) x := by
  cases h with
  | onHeap hx => exact along_onHeap (hx.along heap)
  | learn w => exact fun s => .ok (refl s.heap)

end Store

/-- A run of an operation on the store ends as the operation does. -/
theorem Run.ends_onStore {α : Type} {S : Store → Store → Prop} {R : Machine → Machine → Prop} {x : StoreM α}
    {m : Machine} (ends : Along.Ends S m.store (x m.store)) (lift : ∀ store, S m.store store → R m { m with store }) :
    Along.Ends R m (onStore x m) := by
  obtain ⟨store, globals, tracer⟩ := m
  simp only [onStore] at ends ⊢
  generalize x store = r at ends ⊢
  cases ends with
  | ok h => exact .ok (lift _ h)
  | error h => exact .error (lift _ h)

/-- Host functions go along what the careful operations on the store and the building of objects go along. -/
theorem HostCode.along_run_of_builds {P : (α : Type) → HeapM α → Prop} [Heap.IncludesCareful P]
    {S : Store → Store → Prop} [IsPreorder Store S]
    (prim : ∀ {α : Type} {x : StoreM α}, Store.Over P α x → Along S x) (builds : ∀ o : Object, Along S o.build)
    (l : Library) (c : NativeCall) (code : HostCode) (obtained : List Value) : Along S (code.run l c obtained) := by
  have inspects {α : Type} {f : Heap → Attempt α} (hf : Looks f) : Along S (Store.inspect f) :=
    (Store.composed_inspect hf).along prim
  have makes {cell : Heap.Cell} (simple : cell.isSimple) : Along S (Store.allocate cell) :=
    (Store.composed_make simple).along prim
  have edits (v : Value) (e : Heap.Edit) (keyed : ∀ h, e.KeyedIn h) :
      Along S (Store.onHeap (v.editList c.name e)) :=
    (Store.composed_onHeap (v.composed_editList c.name keyed)).along prim
  induction code generalizing obtained with
  | giveBack v => exact .pure _
  | fail e => exact .throw _
  | requireArity count next ih =>
    have arity := inspects (.const (c.arity count))
    exact arity.attempt.bind fun r => ih r obtained
  | typeOf v next ih => exact (inspects (fun _ _ => by rfl)).bind fun t => ih t obtained
  | textOf v next ih => exact (inspects (fun _ _ => by rfl)).bind fun t => ih t obtained
  | intOf v next ih => exact ih _ obtained
  | objectOf v next ih => exact (inspects (Value.looks_unfold l _)).bind fun o => ih o obtained
  | lengthOf v next ih =>
    have length := inspects (f := (c.value obtained v).length) fun _ _ => rfl
    exact length.attempt.bind fun r => ih r obtained
  | newValue o next ih =>
    exact (builds o).attempt.bind fun r => ih _ _
  | newText s next ih =>
    exact (makes rfl).attempt.bind fun r => ih _ _
  | newStruct next ih =>
    exact (makes rfl).attempt.bind fun r => ih _ _
  | push list item next ih =>
    exact (edits _ (.extend _) fun _ => trivial).attempt.bind fun r => ih r obtained
  | clear list next ih =>
    exact (edits _ .clear fun _ => trivial).attempt.bind fun r => ih r obtained

/-- Host functions go along what the plain operations on the store go along. -/
theorem HostCode.along_run {P : (α : Type) → HeapM α → Prop} [Heap.IncludesPlain P]
    {S : Store → Store → Prop} [IsPreorder Store S]
    (prim : ∀ {α : Type} {x : StoreM α}, Store.Over P α x → Along S x) (l : Library) (c : NativeCall)
    (code : HostCode) (obtained : List Value) : Along S (code.run l c obtained) :=
  along_run_of_builds prim (fun o => (o.composed_buildWithin _).along prim) l c code obtained

end Scriptlet
