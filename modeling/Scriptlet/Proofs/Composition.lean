import Scriptlet.Module.Entry
import Scriptlet.Proofs.Dict.Keyed
import Scriptlet.Proofs.Machine.Steps
import Scriptlet.Proofs.Object.Paths

/-!
# What operations are put together from

All that code and the host do to the store between two calls is put together from a few primitive operations:
objects are looked at, made and changed in place, words are met, globals are read and assigned, statements are
begun and the tracer is told of what happens. This is said here once for every operation. Whatever is kept when
computations are put together and holds of the primitive operations then holds of all of them.

Only calls make frames and only functions that are made mark them, so nearly all operations do with the plain ones
among the primitive operations on the heap, and are put together from any that include those. Most even do with the
careful ones among the plain ones, which bind the entries of dictionaries under the keys of their indices. That this
is also so when a dictionary is displayed cannot be seen from the primitive operations alone, as its keys are taken
before it is made.

What is looked at never depends on the meter.
-/

namespace Scriptlet

open Budget (Meter)
open Call (Args)
open Fault (Cause)
open Heap (Cell)

/-! ## Putting computations together -/

/-- A relation of computations that is kept when computations are put together in the same way. -/
structure Congruence {σ τ : Type} (L : (α : Type) → EStateM Failure σ α → EStateM Failure τ α → Prop) : Prop where
  pure : ∀ {α : Type} (a : α), L α (Pure.pure a) (Pure.pure a)
  raise : ∀ {α : Type} (cause : Cause), L α (Scriptlet.raise cause) (Scriptlet.raise cause)
  bind : ∀ {α β : Type} {x : EStateM Failure σ α} {y : EStateM Failure τ α}
    {f : α → EStateM Failure σ β} {g : α → EStateM Failure τ β},
    L α x y → (∀ a, L β (f a) (g a)) → L β (x >>= f) (y >>= g)

namespace Congruence

variable {σ τ α β : Type} {L : (α : Type) → EStateM Failure σ α → EStateM Failure τ α → Prop}

theorem ite {c : Prop} [Decidable c] {x y : EStateM Failure σ α} {x' y' : EStateM Failure τ α}
    (hx : L α x x') (hy : L α y y') : L α (if c then x else y) (if c then x' else y') := by
  by_cases h : c
  · rw [if_pos h, if_pos h]
    exact hx
  · rw [if_neg h, if_neg h]
    exact hy

theorem mapM (C : Congruence L) {f : α → EStateM Failure σ β} {g : α → EStateM Failure τ β}
    (h : ∀ a, L β (f a) (g a)) (as : List α) : L (List β) (as.mapM f) (as.mapM g) := by
  induction as with
  | nil => exact C.pure []
  | cons a as ih =>
    rw [List.mapM_cons, List.mapM_cons]
    exact C.bind (h a) fun b => C.bind ih fun bs => C.pure (b :: bs)

theorem foldlM (C : Congruence L) {f : β → α → EStateM Failure σ β} {g : β → α → EStateM Failure τ β}
    (h : ∀ b a, L β (f b a) (g b a)) (as : List α) (b : β) : L β (as.foldlM f b) (as.foldlM g b) := by
  induction as generalizing b with
  | nil => exact C.pure b
  | cons a as ih =>
    rw [List.foldlM_cons, List.foldlM_cons]
    exact C.bind (h b a) fun b' => ih b'

end Congruence

/-- Computations that are put together from primitive ones. -/
inductive Composed {σ : Type} (P : (α : Type) → EStateM Failure σ α → Prop) :
    {α : Type} → EStateM Failure σ α → Prop where
  | primitive {α : Type} {x : EStateM Failure σ α} (h : P α x) : Composed P x
  | pure {α : Type} (a : α) : Composed P (Pure.pure a)
  | raise {α : Type} (cause : Cause) : Composed P (Scriptlet.raise cause : EStateM Failure σ α)
  | bind {α β : Type} {x : EStateM Failure σ α} {f : α → EStateM Failure σ β} (hx : Composed P x)
      (hf : ∀ a, Composed P (f a)) : Composed P (x >>= f)

namespace Composed

variable {σ α β : Type} {P : (α : Type) → EStateM Failure σ α → Prop}

theorem congruence : Congruence fun _ (x _ : EStateM Failure σ _) => Composed P x := ⟨.pure, .raise, .bind⟩

theorem ite {c : Prop} [Decidable c] {x y : EStateM Failure σ α} (hx : Composed P x)
    (hy : Composed P y) : Composed P (if c then x else y) := by
  by_cases h : c
  · rw [if_pos h]
    exact hx
  · rw [if_neg h]
    exact hy

theorem mapM {f : α → EStateM Failure σ β} (hf : ∀ a, Composed P (f a)) (as : List α) : Composed P (as.mapM f) :=
  congruence.mapM (g := f) hf as

theorem foldlM {f : β → α → EStateM Failure σ β} (hf : ∀ b a, Composed P (f b a)) (as : List α)
    (b : β) : Composed P (as.foldlM f b) :=
  congruence.foldlM (g := f) hf as b

/-- What is kept when computations are put together and relates the primitive ones to themselves relates all of
them to themselves. -/
theorem related {L : (α : Type) → EStateM Failure σ α → EStateM Failure σ α → Prop}
    (C : Congruence L) (prim : ∀ {α : Type} {x : EStateM Failure σ α}, P α x → L α x x)
    {x : EStateM Failure σ α} (h : Composed P x) : L α x x := by
  induction h with
  | primitive h => exact prim h
  | pure a => exact C.pure a
  | raise cause => exact C.raise cause
  | bind _ _ hx hf => exact C.bind hx hf

end Composed

/-! ## Looking at the heap -/

/-- A look at the heap: it does not depend on the meter. -/
def Looks {α : Type} (f : Heap → Attempt α) : Prop := ∀ h meter, f { h with meter } = f h

/-- What does not depend on the heap at all. -/
theorem Looks.const {α : Type} (x : Attempt α) : Looks fun _ => x := fun _ _ => rfl

namespace Value

section unmetered

variable (h : Heap) (meter : Meter)

/-- Keys are taken from objects alone. The recursion goes down by the nesting that is left. -/
theorem keyWithin_unmetered (n : Nat) : keyWithin { h with meter } n = keyWithin h n := by
  induction n with
  | zero => rfl
  | succ n ih =>
    funext v
    cases v with
    | ref a =>
      simp only [keyWithin]
      rw [ih]
      rfl
    | _ => rfl

theorem key_unmetered (v : Value) : v.key { h with meter } = v.key h :=
  congrFun (keyWithin_unmetered h meter _) v

/-- Equality looks at objects alone, and so does order. -/
theorem equalWithin_unmetered (n : Nat) : equalWithin { h with meter } n = equalWithin h n := by
  induction n with
  | zero => rfl
  | succ n ih =>
    funext v w
    unfold equalWithin
    rw [ih]
    rfl

theorem compareWithin_unmetered (n : Nat) : compareWithin { h with meter } n = compareWithin h n := by
  induction n with
  | zero => rfl
  | succ n ih =>
    have contents : compareContents { h with meter } (compareWithin { h with meter } n) =
        compareContents h (compareWithin h n) := by
      rw [ih]
      rfl
    funext v w
    cases v with
    | int m => cases w <;> rfl
    | bool a => cases w <;> rfl
    | _ => exact congrFun (congrFun contents _) _

theorem anyEqual_unmetered (v : Value) (ws : List Value) : anyEqual { h with meter } v ws = anyEqual h v ws := by
  induction ws with
  | nil => rfl
  | cons w ws ih =>
    unfold anyEqual equal
    rw [ih, equalWithin_unmetered]

theorem contains_unmetered (container v : Value) : container.contains { h with meter } v = container.contains h v := by
  unfold contains
  simp only [key_unmetered, anyEqual_unmetered]
  rfl

/-- What a host is shown of a value depends on objects alone. -/
theorem unfoldWithin_unmetered (l : Library) (n : Nat) : unfoldWithin l { h with meter } n = unfoldWithin l h n := by
  induction n with
  | zero =>
    funext path v
    cases v <;> rfl
  | succ n ih =>
    funext path v
    cases v with
    | ref a =>
      simp only [unfoldWithin]
      rw [ih]
      rfl
    | _ => rfl

end unmetered

theorem looks_key (v : Value) : Looks fun h => v.key h :=
  fun h meter => key_unmetered h meter v

theorem looks_item (container index : Value) : Looks fun h => container.item h index := by
  intro h meter
  unfold item
  simp only [key_unmetered]
  rfl

/-- Which item an assignment changes is seen from the object and the key of the index. -/
theorem looks_itemEdit (a : Address) (index value : Value) :
    Looks fun h => (do itemEdit h (← h.read a) index value : Attempt Heap.Edit) := by
  intro h meter
  unfold itemEdit
  simp only [key_unmetered]
  rfl

/-- All comparisons are looks, those that search a container included. -/
theorem looks_holds (op : Program.Comparison) (v w : Value) : Looks fun h => v.holds h op w := by
  intro h meter
  unfold holds equal compare
  simp only [contains_unmetered, equalWithin_unmetered, compareWithin_unmetered]

theorem looks_unfold (l : Library) (v : Value) : Looks fun h => v.unfold l h := by
  intro h meter
  simp only [unfold_eq_unfoldWithin, unfoldWithin_unmetered h meter l]

end Value

namespace Heap

/-- Frames lead to the frames around them, whatever the meter says. -/
theorem enclosing_unmetered (h : Heap) (meter : Meter) (levels : Nat) :
    enclosing { h with meter } levels = h.enclosing levels := by
  induction levels with
  | zero => rfl
  | succ n ih =>
    funext frame
    cases frame with
    | none => rfl
    | some a =>
      simp only [enclosing]
      rw [ih]
      rfl

theorem looks_enclosing (levels : Nat) (frame : Option Address) : Looks fun h => h.enclosing levels frame :=
  fun h meter => congrFun (enclosing_unmetered h meter levels) frame

end Heap

theorem Activation.looks_frameOf (act : Activation) (x : Code.Name) : Looks fun h => act.frameOf h x := by
  intro h meter
  unfold frameOf
  cases x.scope with
  | outer levels => exact congrFun (h.enclosing_unmetered meter levels) act.frame
  | _ => rfl

/-! ## The heap -/

namespace Heap

/-- The operations on the heap by which no frame comes, goes or is marked: objects are looked at, objects other
than frames are made of what is seen, containers are changed and variables are assigned. -/
inductive Plain : (α : Type) → HeapM α → Prop where
  | inspect {α : Type} {f : Heap → Attempt α} (hf : Looks f) : Plain α (inspect f)
  | make {f : Heap → Attempt Cell} (hf : Looks f) (hc : ∀ h c, f h = .ok c → c.kind ≠ .frame) :
      Plain Address (inspect f >>= allocate)
  | edit (a : Address) (e : Edit) : Plain Unit (modify fun h => h.update a e.apply)
  | assign (a : Address) (x : String) (v : Value) : Plain Unit (modify fun h => h.update a (Cell.assign x v))

/-- The plain operations that only make and change dictionaries whose entries stand under the keys of their indices,
as these are seen then. -/
inductive Careful : (α : Type) → HeapM α → Prop where
  | inspect {α : Type} {f : Heap → Attempt α} (hf : Looks f) : Careful α (inspect f)
  | make {f : Heap → Attempt Cell} (hf : Looks f) (hc : ∀ h c, f h = .ok c → c.kind ≠ .frame ∧ c.KeyedIn h) :
      Careful Address (inspect f >>= allocate)
  | edit (a : Address) {f : Heap → Attempt Edit} (hf : Looks f) (he : ∀ h e, f h = .ok e → e.KeyedIn h) :
      Careful Unit (inspect f >>= fun e => modify fun h => h.update a e.apply)
  | assign (a : Address) (x : String) (v : Value) : Careful Unit (modify fun h => h.update a (Cell.assign x v))

/-- The primitive operations on the heap. -/
inductive Primitive : (α : Type) → HeapM α → Prop where
  | inspect {α : Type} {f : Heap → Attempt α} (hf : Looks f) : Primitive α (inspect f)
  | allocate (c : Cell) : Primitive Address (allocate c)
  | update (a : Address) (f : Cell → Cell) : Primitive Unit (modify fun h => h.update a f)

/-- Operations from which the plain ones can be put together. -/
class IncludesPlain (P : (α : Type) → HeapM α → Prop) : Prop where
  composed : ∀ {α : Type} {x : HeapM α}, Plain α x → Composed P x

instance : IncludesPlain Plain := ⟨.primitive⟩

instance : IncludesPlain Primitive where
  composed h := by
    cases h with
    | inspect hf => exact .primitive (.inspect hf)
    | make hf hc => exact (Composed.primitive (.inspect hf)).bind fun c => .primitive (.allocate c)
    | edit a e => exact .primitive (.update a e.apply)
    | assign a x v => exact .primitive (.update a (Cell.assign x v))

/-- Operations from which the careful ones can be put together. -/
class IncludesCareful (P : (α : Type) → HeapM α → Prop) : Prop where
  composed : ∀ {α : Type} {x : HeapM α}, Careful α x → Composed P x

instance {P : (α : Type) → HeapM α → Prop} [IncludesPlain P] : IncludesCareful P where
  composed h := by
    cases h with
    | inspect hf => exact IncludesPlain.composed (.inspect hf)
    | make hf hc => exact IncludesPlain.composed (.make hf fun h c made => (hc h c made).1)
    | edit a hf he =>
      exact (IncludesPlain.composed (.inspect hf)).bind fun e => IncludesPlain.composed (.edit a e)
    | assign a x v => exact IncludesPlain.composed (.assign a x v)

/-- Whether an object is neither a dictionary nor a frame. -/
def Cell.isSimple : Cell → Bool
  | .dict .. | .frame _ => false
  | _ => true

/-- A simple object says nothing of keys, so making it is careful on any heap. -/
theorem Cell.kind_ne_frame_and_keyedIn {c : Cell} (simple : c.isSimple) (h : Heap) : c.kind ≠ .frame ∧ c.KeyedIn h := by
  cases c <;> simp_all [isSimple, kind, KeyedIn]

section careful

variable {P : (α : Type) → HeapM α → Prop} [IncludesCareful P]

theorem composed_inspect {α : Type} {f : Heap → Attempt α} (hf : Looks f) : Composed P (inspect f) :=
  IncludesCareful.composed (.inspect hf)

theorem composed_make {c : Cell} (simple : c.isSimple) : Composed P (allocate c) := by
  refine IncludesCareful.composed (Careful.make (.const (.ok c)) fun h d made => ?_)
  cases made
  exact c.kind_ne_frame_and_keyedIn simple h

theorem composed_edit (a : Address) {e : Edit} (keyed : ∀ h, e.KeyedIn h) :
    Composed P (modify fun h => h.update a e.apply : HeapM Unit) := by
  refine IncludesCareful.composed (Careful.edit a (.const (.ok e)) fun h d made => ?_)
  cases made
  exact keyed h

theorem composed_read (a : Address) : Composed P (inspect (·.read a)) :=
  composed_inspect (fun _ _ => by rfl)

/-- A variable is assigned in its frame if there is one, and nothing is changed otherwise. -/
theorem composed_assignVariable (frame : Option Address) (x : String) (v : Value) :
    Composed P (assignVariable frame x v) := by
  cases frame with
  | none => exact .pure false
  | some a =>
    refine (composed_read a).bind fun c => ?_
    cases c with
    | frame f => exact (IncludesCareful.composed (.assign a x v)).bind fun _ => .pure true
    | _ => exact .pure false

end careful

theorem composed_makeDict {P : (α : Type) → HeapM α → Prop} [IncludesPlain P]
    (entries : OrderedMap Key (Value × Value)) (frozen : Bool) : Composed P (allocate (.dict entries frozen)) :=
  IncludesPlain.composed (Plain.make (.const (.ok _)) fun _ _ made => by cases made; exact CellKind.noConfusion)

theorem composed_allocate (c : Cell) : Composed Primitive (allocate c) := .primitive (.allocate c)

/-- Marking a frame is primitive but not plain. -/
theorem composed_captureFrame (frame : Option Address) : Composed Primitive (captureFrame frame) := by
  cases frame with
  | none => exact .pure ()
  | some a =>
    refine (composed_read a).bind fun c => ?_
    cases c with
    | frame f => exact .primitive (.update a Cell.capture)
    | _ => exact .pure ()

end Heap

namespace Value

open Heap (IncludesCareful composed_edit composed_inspect)

/-- Joining makes strings, lists and tuples. -/
theorem joined_isSimple {h : Heap} {v w : Value} {c : Cell} (made : joined h v w = .ok (some c)) : c.isSimple := by
  obtain ⟨s, -, made⟩ := Attempt.bind_eq_ok.1 made
  obtain ⟨t, -, made⟩ := Attempt.bind_eq_ok.1 made
  split at made
  · cases made
    rfl
  · split at made
    · obtain ⟨d, -, made⟩ := Attempt.bind_eq_ok.1 made
      obtain ⟨e, -, made⟩ := Attempt.bind_eq_ok.1 made
      split at made <;> cases made <;> rfl
    · cases made

/-- No operator makes a dictionary or a frame. -/
theorem combined_isSimple {h : Heap} {op : Program.Operator} {v w : Value} {c : Cell}
    (made : combined h op v w = .ok c) : c.isSimple := by
  have refused : (do raise (.unsupportedOperands op (← v.type h) (← w.type h)) : Attempt Cell) ≠ .ok c := by
    intro made
    obtain ⟨_, -, made⟩ := Attempt.bind_eq_ok.1 made
    obtain ⟨_, -, made⟩ := Attempt.bind_eq_ok.1 made
    cases made
  unfold combined at made
  split at made
  · obtain ⟨joint, joins, made⟩ := Attempt.bind_eq_ok.1 made
    cases joint with
    | some d =>
      cases made
      exact joined_isSimple joins
    | none => exact absurd made refused
  · exact absurd made refused

/-- An assignment to an item binds the key of the index. -/
theorem keyedIn_itemEdit {h : Heap} {c : Cell} {index value : Value} {e : Heap.Edit}
    (made : itemEdit h c index value = .ok e) : e.KeyedIn h := by
  unfold itemEdit at made
  cases c with
  | list items frozen =>
    obtain ⟨i, -, made⟩ := Attempt.bind_eq_ok.1 made
    split at made
    · cases made
    · cases frozen <;> cases made
      exact trivial
  | dict entries frozen =>
    obtain ⟨key, hashed, made⟩ := Attempt.bind_eq_ok.1 made
    cases frozen <;> cases made
    exact hashed
  | _ => cases made

variable {P : (α : Type) → HeapM α → Prop} [IncludesCareful P]

/-- An assignment to an item is one look that decides on a change and the change itself. -/
theorem composed_setItem (container index value : Value) : Composed P (container.setItem index value) := by
  cases container with
  | ref a =>
    refine IncludesCareful.composed (.edit a (looks_itemEdit a index value) fun h e made => ?_)
    obtain ⟨c, -, made⟩ := Attempt.bind_eq_ok.1 made
    exact keyedIn_itemEdit made
  | _ => exact (composed_inspect (fun _ _ => by rfl)).bind fun type => .raise _

/-- Operators on integers only look, and all others make a simple object of what they see. -/
theorem composed_binary (op : Program.Operator) (v w : Value) : Composed P (v.binary op w) := by
  have made : Composed P (Heap.inspect (fun h => Value.combined h op v w) >>= Heap.allocate) :=
    IncludesCareful.composed (.make (fun _ _ => by rfl) fun h c made =>
      c.kind_ne_frame_and_keyedIn (combined_isSimple made) h)
  have combines : Composed P (combine op v w) := by
    have joined := made.bind fun a => .pure (Value.ref a)
    rwa [bind_assoc] at joined
  unfold binary
  split
  · exact composed_inspect (.const _)
  · exact combines

/-- An augmented assignment extends a list in place and is the plain operator for all else. -/
theorem composed_augment (op : Program.Operator) (v w : Value) : Composed P (v.augment op w) := by
  refine (composed_inspect (fun _ _ => by rfl)).bind fun target => ?_
  cases target with
  | none => exact composed_binary op v w
  | some target =>
    have extends' : Composed P (modify fun h => h.update target.1 (Heap.Edit.extend target.2).apply : HeapM Unit) :=
      composed_edit target.1 fun _ => trivial
    exact extends'.bind fun _ => .pure v

theorem composed_editList (callee : String) (v : Value) {e : Heap.Edit} (keyed : ∀ h, e.KeyedIn h) :
    Composed P (v.editList callee e) :=
  (composed_inspect (fun _ _ => by rfl)).bind fun a => composed_edit a keyed

end Value

/-- Binding arguments makes at most a tuple for the rest and a dictionary for the keywords, whose keys are words. -/
theorem Code.Signature.composed_bind {P : (α : Type) → HeapM α → Prop} [Heap.IncludesCareful P]
    (s : Signature) (callee : String) (defaults : List Value) (args : Args) :
    Composed P (s.bind callee defaults args) := by
  have rest : Composed P (s.collectRest args) := by
    unfold collectRest
    cases s.rest with
    | none => exact .pure []
    | some x => exact (Heap.composed_make rfl).bind fun a => .pure _
  have keywords : ∀ collected, Composed P (s.collectKeywords collected) := by
    intro collected
    unfold collectKeywords
    cases s.keywords with
    | none => exact .pure []
    | some x =>
      let entries := collected.map fun kv => (Key.str kv.1, (Value.text kv.1, kv.2))
      have made : Composed P (Heap.allocate (.dict (.ofList entries) false)) := by
        refine Heap.IncludesCareful.composed (.make (.const (.ok _)) fun h c made => ?_)
        cases made
        refine ⟨Heap.CellKind.noConfusion, fun e he => ?_⟩
        rw [OrderedMap.entries_ofList] at he
        obtain ⟨kv, -, rfl⟩ := List.mem_map.1 (OrderedMap.mem_of_mem_lastWins he)
        rfl
      exact made.bind fun a => .pure _
  refine .ite (Heap.composed_inspect (.const _)) ?_
  refine (Heap.composed_inspect (.const _)).bind fun settled => ?_
  exact rest.bind fun _ => (keywords settled.2).bind fun _ => .pure _

/-! ## The store -/

namespace Store

/-- The operations on the store that are put together from some operations on the heap and those that learn
words. -/
inductive Over (P : (α : Type) → HeapM α → Prop) : (α : Type) → StoreM α → Prop where
  | onHeap {α : Type} {x : HeapM α} (hx : Composed P x) : Over P α (onHeap x)
  | learn (w : String) : Over P Unit (learn w)

/-- The primitive operations on the store. -/
abbrev Primitive : (α : Type) → StoreM α → Prop := Over Heap.Primitive

variable {P : (α : Type) → HeapM α → Prop}

theorem composed_onHeap {α : Type} {x : HeapM α} (hx : Composed P x) : Composed (Over P) (onHeap x) :=
  .primitive (.onHeap hx)

theorem composed_learn (w : String) : Composed (Over P) (learn w) := .primitive (.learn w)

theorem composed_makeDict [Heap.IncludesPlain P] (entries : OrderedMap Key (Value × Value)) (frozen : Bool) :
    Composed (Over P) (allocate (.dict entries frozen)) :=
  (composed_onHeap (Heap.composed_makeDict entries frozen)).bind fun a => .pure (Value.ref a)

variable [Heap.IncludesCareful P]

theorem composed_inspect {α : Type} {f : Heap → Attempt α} (hf : Looks f) : Composed (Over P) (inspect f) :=
  composed_onHeap (Heap.composed_inspect hf)

theorem composed_make {c : Cell} (simple : c.isSimple) : Composed (Over P) (allocate c) :=
  (composed_onHeap (Heap.composed_make simple)).bind fun a => .pure (Value.ref a)

/-- An attribute is a field of a struct, or a method that is made an object. -/
theorem composed_readAttr (l : Library) (v : Value) (attr : String) : Composed (Over P) (readAttr l v attr) := by
  refine (composed_inspect (fun _ _ => by rfl)).bind fun found => ?_
  cases found with
  | some w => exact .pure w
  | none =>
    refine (composed_inspect (fun _ _ => by rfl)).bind fun type => ?_
    cases l.method? type attr with
    | some native => exact composed_make rfl
    | none => exact .raise _

/-- Spread keywords are met as words. -/
theorem composed_spreadKeywords (v : Value) : Composed (Over P) (spreadKeywords v) := by
  have all : ∀ es, Composed (Over P) (keywordsOf es) := by
    intro es
    induction es with
    | nil => exact .pure []
    | cons e es ih =>
      refine (composed_inspect (fun _ _ => by rfl)).bind fun x => ?_
      exact (composed_learn x).bind fun _ => ih.bind fun kvs => .pure _
  exact (composed_inspect (fun _ _ => by rfl)).bind fun es => all es

end Store

section build

variable {P : (α : Type) → HeapM α → Prop} [Heap.IncludesPlain P]

/-- An object of the host is built from its innermost parts outwards. -/
theorem Object.composed_buildWithin (n : Nat) (o : Object) : Composed (Store.Over P) (o.buildWithin n) := by
  have makes {c : Cell} (simple : c.isSimple) : Composed (Store.Over P) (Store.allocate c) :=
    Store.composed_make simple
  induction n generalizing o with
  | zero => exact .raise _
  | succ n ih =>
    cases o with
    | string s => exact makes rfl
    | list items => exact (Composed.mapM ih _).bind fun vs => makes rfl
    | tuple items => exact (Composed.mapM ih _).bind fun vs => makes rfl
    | dict pairs =>
      refine Composed.bind (.foldlM (fun entries p => ?_) _ _) fun entries => Store.composed_makeDict entries false
      refine (ih p.1).bind fun k => (ih p.2).bind fun v => ?_
      exact (Store.composed_inspect k.looks_key).bind fun key => .pure _
    | struct fields =>
      refine Composed.bind (.foldlM (fun fields p => ?_) _ _) fun fields => makes rfl
      exact (ih p.2).bind fun v => (Store.composed_learn p.1).bind fun _ => .pure _
    | described text => exact .raise _
    | cycle text => exact .raise _
    | _ => exact .pure _

theorem Module.composed_buildArgs (positional : List Object) (keywords : List (String × Object)) :
    Composed (Store.Over P) (buildArgs positional keywords) := by
  refine (Composed.mapM (fun o => o.composed_buildWithin _) positional).bind fun vs => ?_
  refine Composed.bind (.mapM (fun kv => ?_) keywords) fun kvs => .pure _
  exact (kv.2.composed_buildWithin _).bind fun v => (Store.composed_learn kv.1).bind fun _ => .pure _

end build

/-! ## The machine -/

/-- An event that neither a statement nor a call causes. -/
def Trace.Event.Aside : Trace.Event → Prop
  | .statement .. => False
  | .enter .. => False
  | .leave .. => False
  | _ => True

namespace Run

/-- The operations of code that runs with `depth` calls open, over some operations on the heap. -/
inductive Over (P : (α : Type) → HeapM α → Prop) (depth : Nat) : (α : Type) → Run α → Prop where
  | onStore {α : Type} {x : StoreM α} (hx : Composed (Store.Over P) x) : Over P depth α (onStore x)
  | observe {e : Trace.Event} (he : e.Aside) : Over P depth Unit (observe e)
  | begin (kind : Trace.StatementKind) :
      Over P depth Unit (do onStore (Store.onHeap tick); observe (.statement kind depth))
  | loadGlobal (l : Library) (x : String) : Over P depth Value (loadGlobal l x)
  | storeGlobal (x : String) (v : Value) : Over P depth Unit (storeGlobal x v)

/-- The primitive operations of code that runs with `depth` calls open. -/
abbrev Primitive (depth : Nat) : (α : Type) → Run α → Prop := Over Heap.Primitive depth

variable {P : (α : Type) → HeapM α → Prop} {depth : Nat} {α : Type}

theorem composed_onStore {x : StoreM α} (hx : Composed (Store.Over P) x) : Composed (Over P depth) (onStore x) :=
  .primitive (.onStore hx)

theorem composed_onHeap {x : HeapM α} (hx : Composed P x) : Composed (Over P depth) (onStore (Store.onHeap x)) :=
  composed_onStore (Store.composed_onHeap hx)

theorem composed_makeDict [Heap.IncludesPlain P] (entries : OrderedMap Key (Value × Value)) (frozen : Bool) :
    Composed (Over P depth) (allocate (.dict entries frozen)) :=
  composed_onStore (Store.composed_makeDict entries frozen)

variable [Heap.IncludesCareful P]

theorem composed_inspect {f : Heap → Attempt α} (hf : Looks f) : Composed (Over P depth) (inspect f) :=
  composed_onStore (Store.composed_inspect hf)

theorem composed_make {c : Cell} (simple : c.isSimple) : Composed (Over P depth) (allocate c) :=
  composed_onStore (Store.composed_make simple)

end Run

namespace Activation

open Run (Primitive composed_inspect composed_make composed_onHeap)

variable (act : Activation)

section careful

variable {P : (α : Type) → HeapM α → Prop} [Heap.IncludesCareful P]

/-- A variable that is not bound yet fails when it is read. -/
theorem composed_loadFrom {depth : Nat} (frame : Option Address) (x : String) :
    Composed (Run.Over P depth) (loadFrom frame x) := by
  refine (composed_inspect (fun _ _ => by rfl)).bind fun found => ?_
  cases found with
  | some v => exact .pure v
  | none => exact .raise _

/-- Names of enclosing calls are told to the tracer before they are read. -/
theorem composed_load (x : Code.Name) : Composed (Run.Over P act.depth) (act.load x) := by
  unfold load
  cases x.scope with
  | global => exact .primitive (.loadGlobal act.library x.text)
  | own => exact composed_loadFrom act.frame x.text
  | outer levels =>
    refine .bind (.primitive (.observe (by exact trivial))) fun _ => ?_
    exact (composed_inspect (Heap.looks_enclosing levels act.frame)).bind
      fun frame => composed_loadFrom frame x.text

/-- A name that no frame binds is assigned in the module. -/
theorem composed_store (x : Code.Name) (v : Value) : Composed (Run.Over P act.depth) (act.store x v) := by
  refine (composed_inspect (act.looks_frameOf x)).bind fun frame => ?_
  refine (composed_onHeap (Heap.composed_assignVariable frame x.text v)).bind fun assigned => ?_
  cases assigned with
  | true => exact .pure ()
  | false => exact .primitive (.storeGlobal x.text v)

omit [Heap.IncludesCareful P] in
theorem composed_begin (kind : Trace.StatementKind) : Composed (Run.Over P act.depth) (act.begin kind) :=
  .primitive (.begin kind)

end careful

/-- A nested function marks the frame that it is made in, which is the only operation here that is not careful. -/
theorem composed_makeFunction_of_capture {P : (α : Type) → HeapM α → Prop} [Heap.IncludesCareful P]
    (capture : Composed P (Heap.captureFrame act.frame)) (id : FunctionId) (defaults : List Value) :
    Composed (Run.Over P act.depth) (act.makeFunction id defaults) := by
  refine (composed_inspect (.const _)).bind fun f => ?_
  refine .bind (.primitive (.observe (by exact trivial))) fun _ => ?_
  split
  · exact (composed_onHeap capture).bind fun _ => composed_make rfl
  · exact composed_make rfl

theorem composed_makeFunction (id : FunctionId) (defaults : List Value) :
    Composed (Primitive act.depth) (act.makeFunction id defaults) :=
  act.composed_makeFunction_of_capture (Heap.composed_captureFrame act.frame) id defaults

end Activation

end Scriptlet
