import Scriptlet.Proofs.Heap.Changes
import Scriptlet.Proofs.Stepping.Requests

/-!
# The frames on a heap

Where frames are on a heap and which of them are marked as captured. Plain operations leave this as it is. Frames
come and go with the calls of functions, and are marked when a function is made in such a call, so a list of the
calls that are open, with a note on each, accounts for all frames that are not marked.
-/

namespace Scriptlet

open Heap (Cell Frame)

namespace Heap

variable {c : Cell} {a : Address}

/-! ## Marks -/

/-- Whether an object is marked as captured, if it is a frame. -/
def Cell.captured? : Cell → Option Bool
  | .frame f => some f.captured
  | _ => none

theorem Cell.captured?_of_kind (h : c.kind ≠ .frame) : c.captured? = none := by
  cases c with
  | frame f => exact absurd rfl h
  | _ => rfl

theorem Edit.captured?_apply (e : Edit) (c : Cell) : (e.apply c).captured? = c.captured? := by
  cases e <;> cases c <;> rfl

theorem Cell.captured?_assign (x : String) (v : Value) (c : Cell) : (c.assign x v).captured? = c.captured? := by
  cases c <;> rfl

theorem Cell.captured?_freeze (c : Cell) : c.freeze.captured? = c.captured? := by
  cases c <;> rfl

/-- Whether the frame at an address is marked as captured, if there is a frame. -/
def captured? (h : Heap) (a : Address) : Option Bool := (h.cell? a).bind Cell.captured?

theorem captured?_eq_some {h : Heap} {b : Bool} :
    h.captured? a = some b ↔ ∃ f, h.cell? a = some (.frame f) ∧ f.captured = b := by
  unfold captured?
  cases h.cell? a with
  | none => simp
  | some c => cases c <;> simp [Cell.captured?]

/-- A frame at this address is not marked as captured. -/
def Uncaptured (h : Heap) (a : Address) : Prop := ∃ f, h.cell? a = some (.frame f) ∧ f.captured = false

theorem uncaptured_iff {h : Heap} : h.Uncaptured a ↔ h.captured? a = some false :=
  captured?_eq_some.symm

theorem captured?_update (h : Heap) (a : Address) (f : Cell → Cell) (b : Address) :
    (h.update a f).captured? b =
      if a = b then (h.cell? b).bind fun c => (f c).captured? else h.captured? b := by
  unfold captured?
  rw [cell?_update]
  split
  · rw [Option.bind_map]
    rfl
  · rfl

theorem Placed.captured? {h h' : Heap} (p : h.Placed c a h') (b : Address) :
    h'.captured? b = if a = b then c.captured? else h.captured? b := by
  unfold Heap.captured?
  rw [p.cell? b]
  split <;> rfl

/-! ## What keeps frames -/

/-- The two heaps have frames at the same places and with the same marks. -/
def SameFrames (h h' : Heap) : Prop := h.Tidy → h'.Tidy ∧ ∀ a, h'.captured? a = h.captured? a

instance : IsPreorder Heap SameFrames where
  refl _ ht := ⟨ht, fun _ => rfl⟩
  trans _ _ _ first second ht := by
    obtain ⟨ht, same⟩ := first ht
    obtain ⟨ht, same'⟩ := second ht
    exact ⟨ht, fun a => (same' a).trans (same a)⟩

theorem sameFrames_update (h : Heap) (a : Address) {f : Cell → Cell}
    (hf : ∀ c, (f c).captured? = c.captured?) : h.SameFrames (h.update a f) := by
  refine fun ht => ⟨ht.update a f, fun b => ?_⟩
  rw [captured?_update]
  split
  · simp only [hf]
    rfl
  · rfl

theorem sameFrames_freezeFrom (h : Heap) (roots : List Address) : h.SameFrames (h.freezeFrom roots) := by
  refine fun ht => ⟨ht.freezeFrom roots, fun a => ?_⟩
  unfold captured?
  obtain same | frozen := h.cell?_freezeFrom roots a
  · rw [same]
  · rw [frozen, Option.bind_map]
    exact congrArg (h.cell? a).bind (funext Cell.captured?_freeze)

/-- Objects other than frames take the place of no frame. -/
theorem keepsFrames_allocate (hc : c.kind ≠ .frame) : Along SameFrames (allocate c) := by
  intro h
  cases ran : allocate c h with
  | ok a h' =>
    refine .ok fun ht => ?_
    have placed := (allocate_eq_ok ht ran).2
    refine ⟨placed.tidy, fun b => ?_⟩
    rw [placed.captured?]
    split
    · rename_i hab
      rw [← hab, captured?, placed.fresh, Cell.captured?_of_kind hc]
      rfl
    · rfl
  | error f h' =>
    refine .error fun ht => ?_
    rw [allocate_eq_error ht ran]
    exact ⟨ht, fun _ => rfl⟩

theorem Plain.keepsFrames {α : Type} {x : HeapM α} (h : Plain α x) : Along SameFrames x := by
  cases h with
  | inspect looks => exact along_inspect _
  | @make f looks hc =>
    intro h
    show Along.Ends SameFrames h (EStateM.bind (Heap.inspect f) allocate h)
    unfold EStateM.bind Heap.inspect
    cases found : f h with
    | ok c => exact keepsFrames_allocate (hc h c found) h
    | error e => exact .error (refl h)
  | edit a e => exact fun h => .ok (h.sameFrames_update a e.captured?_apply)
  | assign a x v => exact fun h => .ok (h.sameFrames_update a (Cell.captured?_assign x v))

theorem keepsFrames_tick : Along SameFrames Run.tick := by
  have same (h : Heap) (meter : Budget.Meter) : h.SameFrames { h with meter } :=
    fun ht => ⟨⟨ht.mem_free_iff, ht.nodup⟩, fun _ => rfl⟩
  rintro ⟨slots, free, meter, sinceCollection⟩
  simp only [Run.tick]
  split
  · exact .error (same _ _)
  · exact .ok (same _ _)

end Heap

/-- The heaps of the two machines have the same frames with the same marks. -/
def Machine.SameFrames (m m' : Machine) : Prop := m.store.heap.SameFrames m'.store.heap

instance : IsPreorder Machine Machine.SameFrames where
  refl m := refl (r := Heap.SameFrames) m.store.heap
  trans _ _ _ first second := IsTrans.trans (r := Heap.SameFrames) _ _ _ first second

namespace Run

variable {α : Type} {depth : Nat}

theorem keepsFrames_onStore {x : StoreM α} (hx : Along (Store.Via Heap.SameFrames) x) :
    Along Machine.SameFrames (onStore x) :=
  fun m => ends_onStore (hx m.store) fun _ h => h

theorem Over.keepsFrames {x : Run α} (h : Over Heap.Plain depth α x) : Along Machine.SameFrames x := by
  cases h with
  | onStore hx => exact keepsFrames_onStore (hx.along fun h => h.along Heap.Plain.keepsFrames)
  | observe aside => exact fun m => .ok (refl (r := Heap.SameFrames) m.store.heap)
  | begin kind =>
    exact (keepsFrames_onStore (Store.along_onHeap Heap.keepsFrames_tick)).bind
      fun _ m => .ok (refl (r := Heap.SameFrames) m.store.heap)
  | loadGlobal l x => exact along_loadGlobal l x
  | storeGlobal x v =>
    rintro ⟨store, globals, tracer⟩
    unfold Run.storeGlobal
    by_cases frozen : globals.frozen
    · simp only [if_pos frozen]
      exact .error (refl (r := Heap.SameFrames) store.heap)
    · simp only [if_neg frozen]
      exact .ok (refl (r := Heap.SameFrames) store.heap)

end Run

theorem Request.keepsFrames (l : Library) (depth : Nat) {α : Type} {r : Request α} (hr : r.Plain) :
    Along Machine.SameFrames (r.perform l depth) :=
  (composed_perform l depth hr).along Run.Over.keepsFrames

theorem Request.keepsFrames_native (l : Library) (depth : Nat) (id : NativeId) (receiver : Option Value)
    (args : Call.Args) : Along Machine.SameFrames ((native id receiver args).perform l depth) :=
  (keepsFrames l depth (r := .entry id) trivial).bind fun _ =>
    Run.keepsFrames_onStore (HostCode.along_run (fun h => h.along Heap.Plain.keepsFrames) l _ _ [])

/-! ## The frames of open calls -/

/-- A call of a function that is open. -/
structure ActiveCall where
  frame : Address
  /-- Whether a `def` or a `lambda` has run in it. -/
  hasDefined : Bool
  deriving DecidableEq

namespace ActiveCall

/-- The calls that are open, the innermost first, after a `def` or a `lambda` has run in the innermost. -/
def noteDefinition : List ActiveCall → List ActiveCall
  | [] => []
  | c :: calls => { c with hasDefined := true } :: calls

theorem frames_noteDefinition (calls : List ActiveCall) : (noteDefinition calls).map frame = calls.map frame := by
  cases calls <;> rfl

end ActiveCall

/-- The frame of each open call has a place of its own on the heap and is marked if a function has been made in the
call, and all frames other than these are marked. -/
structure Heap.Carries (h : Heap) (calls : List ActiveCall) : Prop where
  tidy : h.Tidy
  distinct : (calls.map ActiveCall.frame).Nodup
  present : ∀ c ∈ calls, h.captured? c.frame = some c.hasDefined
  complete : ∀ a, h.captured? a = some false → a ∈ calls.map ActiveCall.frame

namespace Heap.Carries

variable {h h' : Heap} {calls : List ActiveCall} {a : Address}

/-- The frames that are not marked are those of the open calls without a note. -/
theorem uncaptured_iff_mem (carried : h.Carries calls) : h.Uncaptured a ↔ ⟨a, false⟩ ∈ calls := by
  rw [uncaptured_iff]
  constructor
  · intro unmarked
    obtain ⟨⟨frame, hasDefined⟩, hc, rfl⟩ := List.mem_map.1 (carried.complete a unmarked)
    obtain rfl := Option.some.inj (unmarked.symm.trans (carried.present _ hc))
    exact hc
  · exact carried.present ⟨a, false⟩

theorem of_same (carried : h.Carries calls) (same : h.SameFrames h') : h'.Carries calls := by
  obtain ⟨tidy, same⟩ := same carried.tidy
  refine ⟨tidy, carried.distinct, fun c hc => ?_, fun b hb => ?_⟩
  · rw [same]
    exact carried.present c hc
  · rw [same] at hb
    exact carried.complete b hb

/-- A call gets its frame. -/
theorem enter (carried : h.Carries calls) {f : Frame} (unmarked : f.captured = false)
    (placed : h.Placed (.frame f) a h') : h'.Carries (⟨a, false⟩ :: calls) := by
  have absent : h.captured? a = none := by rw [captured?, placed.fresh]; rfl
  have new : ∀ c ∈ calls, a ≠ c.frame := by
    rintro c hc rfl
    rw [carried.present c hc] at absent
    cases absent
  refine ⟨placed.tidy, ?_, fun c hc => ?_, fun b hb => ?_⟩
  · refine List.nodup_cons.2 ⟨fun ha => ?_, carried.distinct⟩
    obtain ⟨c, hc, same⟩ := List.mem_map.1 ha
    exact new c hc same.symm
  · rw [placed.captured?]
    obtain rfl | hc := List.mem_cons.1 hc
    · rw [if_pos rfl, Cell.captured?, unmarked]
    · rw [if_neg (new c hc)]
      exact carried.present c hc
  · rw [placed.captured?] at hb
    split at hb
    · rename_i hab
      exact hab ▸ List.mem_cons_self
    · exact List.mem_cons_of_mem _ (carried.complete b hb)

/-- A function is made in the innermost call. -/
theorem capture {c : ActiveCall} (carried : h.Carries (c :: calls)) :
    (h.update c.frame Cell.capture).Carries (ActiveCall.noteDefinition (c :: calls)) := by
  obtain ⟨f, hf, -⟩ := captured?_eq_some.1 (carried.present c List.mem_cons_self)
  have marked (b : Address) : (h.update c.frame Cell.capture).captured? b =
      if c.frame = b then some true else h.captured? b := by
    rw [captured?_update]
    split
    · rename_i hb
      rw [← hb, hf]
      rfl
    · rfl
  have others := (List.nodup_cons.1 carried.distinct).1
  refine ⟨carried.tidy.update _ _, carried.distinct, fun d hd => ?_, fun b hb => ?_⟩
  · rw [marked]
    obtain rfl | hd := List.mem_cons.1 hd
    · rw [if_pos rfl]
    · rw [if_neg fun same => others (List.mem_map.2 ⟨d, hd, same.symm⟩)]
      exact carried.present d (List.mem_cons_of_mem _ hd)
  · rw [marked] at hb
    split at hb
    · cases hb
    · exact carried.complete b hb

/-- The innermost call is left, and its frame is released. -/
theorem leave {c : ActiveCall} (carried : h.Carries (c :: calls)) :
    ∃ h', releaseFrame c.frame h = .ok () h' ∧ h'.Carries calls := by
  obtain ⟨distinct, rest⟩ := List.nodup_cons.1 carried.distinct
  have here := carried.present c List.mem_cons_self
  obtain ⟨f, hf, marked⟩ := captured?_eq_some.1 here
  refine ⟨_, releaseFrame_frame hf, ?_⟩
  have present : ∀ d ∈ calls, h.captured? d.frame = some d.hasDefined :=
    fun d hd => carried.present d (List.mem_cons_of_mem _ hd)
  rw [marked]
  cases kept : c.hasDefined with
  | true =>
    rw [if_pos rfl]
    refine ⟨carried.tidy, rest, present, fun b hb => ?_⟩
    obtain rfl | hb' := List.mem_cons.1 (carried.complete b hb)
    · rw [here, kept] at hb
      cases hb
    · exact hb'
  | false =>
    have discarded (b : Address) :
        (h.discard c.frame).captured? b = if c.frame = b then none else h.captured? b := by
      unfold captured?
      rw [cell?_discard]
      split <;> rfl
    rw [if_neg Bool.false_ne_true]
    refine ⟨carried.tidy.discard _, rest, fun d hd => ?_, fun b hb => ?_⟩
    · rw [discarded, if_neg fun same => distinct (List.mem_map.2 ⟨d, hd, same.symm⟩)]
      exact present d hd
    · rw [discarded] at hb
      split at hb
      · cases hb
      · rename_i other
        obtain same | hb' := List.mem_cons.1 (carried.complete b hb)
        · exact absurd same.symm other
        · exact hb'

/-- With no call open, objects may go. -/
theorem collect (carried : h.Carries []) (roots : List Address) : (h.collect roots).2.Carries [] := by
  refine ⟨carried.tidy.collect roots, List.nodup_nil, fun c hc => (List.not_mem_nil hc).elim, fun a ha => ?_⟩
  obtain ⟨f, hf, unmarked⟩ := captured?_eq_some.1 ha
  exact carried.complete a (captured?_eq_some.2 ⟨f, (cell?_collect_eq_some.1 hf).2, unmarked⟩)

end Heap.Carries

end Scriptlet
