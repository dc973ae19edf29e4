import Scriptlet.Proofs.Along
import Scriptlet.Proofs.Dict.Display

/-!
# Operations that keep a heap keyed

Whatever code and host functions do between two collections keeps a heap keyed and keeps the strings and tuples on it.
For the careful operations this can be said of each by itself. A display of a dictionary takes the keys of its indices
one after another and makes the dictionary at the end, and as strings and tuples are kept in between, the keys are
still those of the indices then.
-/

namespace Scriptlet

open Heap (Cell Frame KeysKept StaysKeyed)

/-! ## The heap -/

namespace Heap

/-- The careful operations, and those on the frames of calls. -/
inductive Steady : (α : Type) → HeapM α → Prop where
  | careful {α : Type} {x : HeapM α} (hx : Careful α x) : Steady α x
  | newFrame (f : Frame) : Steady Address (allocate (.frame f))
  | capture (a : Address) : Steady Unit (modify fun h => h.update a Cell.capture)

instance : IncludesCareful Steady := ⟨fun hx => .primitive (.careful hx)⟩

theorem composed_steady_captureFrame (frame : Option Address) : Composed Steady (captureFrame frame) := by
  cases frame with
  | none => exact .pure ()
  | some a =>
    refine (composed_read a).bind fun c => ?_
    cases c with
    | frame f => exact .primitive (.capture a)
    | _ => exact .pure ()

variable {α : Type} {h : Heap}

theorem ends_allocate {c : Cell} (keyed : c.KeyedIn h) : Along.Ends StaysKeyed h (allocate c h) := by
  cases ran : allocate c h with
  | ok a h' =>
    refine .ok fun before => ?_
    rcases allocate_cases before.tidy c with ⟨_, _, refused⟩ | ⟨_, _, _, _, made, placed, _⟩
    · rw [ran] at refused
      cases refused
    · rw [ran] at made
      cases made
      exact placed.staysKeyed keyed before
  | error f h' =>
    refine .error fun before => ?_
    rcases allocate_cases before.tidy c with ⟨_, _, refused⟩ | ⟨_, _, _, _, made, _, _⟩
    · rw [ran] at refused
      cases refused
      exact refl (r := StaysKeyed) h before
    · rw [ran] at made
      cases made

theorem ends_inspect_bind {β : Type} {f : Heap → Attempt α} {g : α → HeapM β}
    (next : ∀ a, f h = .ok a → Along.Ends StaysKeyed h (g a h)) : Along.Ends StaysKeyed h ((inspect f >>= g) h) := by
  cases seen : f h with
  | ok a =>
    have looked : inspect f h = .ok a h := by simp only [inspect, seen]
    rw [bind_of_ok looked]
    exact next a seen
  | error e =>
    have looked : inspect f h = .error e.failure h := by simp only [inspect, seen]
    rw [bind_of_error looked]
    exact .error (refl h)

theorem Careful.along {x : HeapM α} (hx : Careful α x) : Along StaysKeyed x := by
  cases hx with
  | inspect hf => exact along_inspect _
  | make hf hc => exact fun h => ends_inspect_bind fun c seen => ends_allocate (hc h c seen).2
  | edit a hf he => exact fun h => ends_inspect_bind fun e seen => .ok (staysKeyed_edit (he h e seen) a)
  | assign a x v => exact fun h => .ok (staysKeyed_assign h a x v)

theorem Steady.along {x : HeapM α} (hx : Steady α x) : Along StaysKeyed x := by
  cases hx with
  | careful hx => exact hx.along
  | newFrame f => exact fun h => ends_allocate trivial
  | capture a => exact fun h => .ok (staysKeyed_capture h a)

theorem along_staysKeyed_releaseFrame (a : Address) : Along StaysKeyed (releaseFrame a) := by
  intro h
  unfold releaseFrame
  by_cases hi : h.slots.size ≤ a.index
  · rw [if_pos hi]
    exact .error (refl h)
  · rw [if_neg hi]
    split
    · rename_i frame
      exact .ok (staysKeyed_discard frame)
    · exact .ok (refl h)

end Heap

/-! ## Displays -/

section display

variable {σ : Type}

/-- If the states satisfied an invariant, they still do, and all strings and tuples are still there. -/
def Holding (heap : σ → Heap) (I : σ → Prop) (s s' : σ) : Prop := I s → I s' ∧ (heap s).KeysKept (heap s')

variable {heap : σ → Heap} {I : σ → Prop}

instance : IsPreorder σ (Holding heap I) where
  refl s inv := ⟨inv, fun _ _ hc _ => hc⟩
  trans s₁ s₂ s₃ first second inv := by
    obtain ⟨inv₂, kept⟩ := first inv
    obtain ⟨inv₃, kept'⟩ := second inv₂
    exact ⟨inv₃, fun a c hc part => kept' a c (kept a c hc part) part⟩

theorem Along.Ends.of_not {α : Type} {s : σ} (out : ¬ I s) (r : EStateM.Result Failure σ α) :
    Along.Ends (Holding heap I) s r := by
  cases r with
  | ok a s' => exact .ok fun inv => absurd inv out
  | error f s' => exact .error fun inv => absurd inv out

theorem Along.ends_bind {R : σ → σ → Prop} [IsPreorder σ R] {α β : Type} {x : EStateM Failure σ α}
    {f : α → EStateM Failure σ β} {s : σ} (hx : Along R x)
    (next : ∀ a s', x s = .ok a s' → R s s' → Along.Ends R s' (f a s')) : Along.Ends R s ((x >>= f) s) := by
  have first := hx s
  cases ran : x s with
  | ok a s' =>
    rw [ran] at first
    cases first with
    | ok rel =>
      rw [bind_of_ok ran]
      exact (next a s' ran rel).from_rel rel
  | error e s' =>
    rw [ran] at first
    cases first with
    | error rel =>
      rw [bind_of_error ran]
      exact .error rel

/-- A display keeps the invariant if this is so of its indices and values, of taking a key and of making a dictionary
whose entries stand under the keys of their indices. -/
theorem along_display {key : Value → EStateM Failure σ Key}
    {make : OrderedMap Key (Value × Value) → EStateM Failure σ Value} (keys : ∀ v, Along (Holding heap I) (key v))
    (taken : ∀ v s k s', key v s = .ok k s' → v.key (heap s') = .ok k)
    (makes : ∀ es s, (Cell.dict es false).KeyedIn (heap s) → Along.Ends (Holding heap I) s (make es s))
    {xs : List (EStateM Failure σ Value × EStateM Failure σ Value)}
    (all : ∀ x ∈ xs, Along (Holding heap I) x.1 ∧ Along (Holding heap I) x.2)
    {entries : OrderedMap Key (Value × Value)} {s : σ} (keyed : (Cell.dict entries false).KeyedIn (heap s)) :
    Along.Ends (Holding heap I) s (displayDict key make entries xs s) := by
  induction xs generalizing entries s with
  | nil => exact makes entries s keyed
  | cons x xs ih =>
    obtain ⟨⟨index, value⟩, all⟩ := List.forall_mem_cons.1 all
    by_cases inv : I s
    · refine Along.ends_bind index fun i s₁ _ rel₁ => ?_
      refine Along.ends_bind value fun v s₂ _ rel₂ => ?_
      refine Along.ends_bind (keys i) fun k s₃ hashed rel₃ => ?_
      have rel : Holding heap I s s₃ := IsTrans.trans _ _ _ rel₁ (IsTrans.trans _ _ _ rel₂ rel₃)
      obtain ⟨-, kept⟩ := rel inv
      -- The entries so far have kept their keys, and the new one stands under the key that was just taken.
      refine ih all fun e mem => ?_
      rw [OrderedMap.entries_insert] at mem
      rcases OrderedMap.eq_or_mem_of_mem_put mem with rfl | mem
      · exact taken i s₂ k s₃ hashed
      · exact kept.key (keyed e mem)
    · exact .of_not inv _

end display

/-! ## The store -/

namespace Store

/-- The heap of the store stays keyed. -/
abbrev Keeps : Store → Store → Prop := Holding Store.heap fun s => s.heap.Keyed

variable {α : Type} {s : Store}

theorem keeps_of_composed {x : StoreM α} (h : Composed (Over Heap.Steady) x) : Along Keeps x :=
  h.along (R := Via StaysKeyed) fun h => h.along Heap.Steady.along

theorem keeps_makeDict {entries : OrderedMap Key (Value × Value)} (keyed : (Cell.dict entries false).KeyedIn s.heap) :
    Along.Ends Keeps s (allocate (.dict entries false) s) := by
  obtain ⟨heap, lexicon⟩ := s
  have ends := Heap.ends_allocate keyed
  unfold allocate
  cases ran : Heap.allocate (.dict entries false) heap with
  | ok a h' =>
    have made : onHeap (Heap.allocate (.dict entries false)) ⟨heap, lexicon⟩ = .ok a ⟨h', lexicon⟩ := by
      simp only [onHeap, ran]
    rw [bind_of_ok made]
    rw [ran] at ends
    cases ends with
    | ok rel => exact .ok rel
  | error f h' =>
    have made : onHeap (Heap.allocate (.dict entries false)) ⟨heap, lexicon⟩ = .error f ⟨h', lexicon⟩ := by
      simp only [onHeap, ran]
    rw [bind_of_error made]
    rw [ran] at ends
    cases ends with
    | error rel => exact .error rel

end Store

namespace Object

open Store (Keeps keeps_of_composed)

theorem keeps_buildWithin (n : Nat) (o : Object) : Along Keeps (o.buildWithin n) := by
  have makes {c : Cell} (simple : c.isSimple) : Along Keeps (Store.allocate c) :=
    keeps_of_composed (Store.composed_make simple)
  have looks (v : Value) : Along Keeps (Store.inspect v.key) :=
    keeps_of_composed (Store.composed_inspect v.looks_key)
  induction n generalizing o with
  | zero => exact Along.congruence.raise _
  | succ n ih =>
    cases o with
    | string s => exact makes rfl
    | list items => exact (Along.mapM ih items).bind fun vs => makes rfl
    | tuple items => exact (Along.mapM ih items).bind fun vs => makes rfl
    | dict pairs =>
      rw [buildWithin_dict]
      intro s
      refine along_display looks (fun v s k s' taken => ?_) (fun es s => Store.keeps_makeDict) (fun x mem => ?_)
        (fun e mem => ?_)
      · obtain ⟨hashed, rfl⟩ := Store.inspect_eq_ok.1 taken
        exact hashed
      · obtain ⟨p, -, rfl⟩ := List.mem_map.1 mem
        exact ⟨ih p.1, ih p.2⟩
      · cases mem
    | struct fields =>
      refine Along.bind (.foldlM (fun fields p => ?_) _ _) fun fields => makes rfl
      exact (ih p.2).bind fun v => (keeps_of_composed (Store.composed_learn p.1)).bind fun _ => Along.congruence.pure _
    | described text => exact Along.congruence.raise _
    | cycle text => exact Along.congruence.raise _
    | _ => exact Along.congruence.pure _

end Object

end Scriptlet
