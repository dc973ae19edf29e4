import Scriptlet.Proofs.Code.Definitions
import Scriptlet.Proofs.Soundness.Store
import Scriptlet.Proofs.Watch.Basic

/-!
# What holds throughout a run

A machine is sound if all that its store and its globals refer to is there. A history tracks a machine if every
frame and every function value on the heap is linked to the frames of the calls that the history says it stems
from, if the functions of these calls are nested in each other as their definitions are, and if its journal tells
how each function value came about and how the arguments of each call were bound.

This module says how each change of the heap keeps both.
-/

namespace Scriptlet

open Call (Args)
open Code (Allowed Defined Encloses Extends Need)
open Heap (Cell Frame)

/-- All that the store and the globals refer to is there. -/
structure Machine.Sound (l : Library) (m : Machine) : Prop where
  store : m.store.Sound l
  globals : m.globals.vars.Matches (m.store.view l).binding m.globals.vars

/-- A function is well-formed for code inside the functions of a lineage, and is made in the body of the first
of them. -/
structure Belongs (l : Library) (word : String → Prop) (L : Lineage) (id : FunctionId) : Prop where
  defined : Defined l.functions word L.length id
  enclosed : ∀ r ∈ L.head?, Encloses l.functions r.function id

/-- Code in a call of some lineage may ask for something. -/
def Asked (l : Library) (word : String → Prop) (L : Lineage) (need : Need) : Prop :=
  Allowed l.functions word L.length need ∧ ∀ id ∈ need.made?, Belongs l word L id

/-- The frame of the first call of a lineage is there, and stems from that call. -/
def Lineage.Live (L : Lineage) (H : History) (h : Heap) : Prop :=
  ∀ r ∈ L.head?, H.origin r.frame = L ∧ ∃ f, h.cell? r.frame = some (.frame f)

/-- A call is opened after some deeds: the callee is a function value, and the variables of the frame are what its
definition binds the arguments to, given the defaults that the function value was made with. -/
def Opened (l : Library) (earlier : List Deed) (callee : Value) (args : Args) (r : CallRecord) (m : Machine) : Prop :=
  ∃ a b f before bindings after frame, callee = .ref a ∧ birth? a earlier = some b ∧
    b.function = r.function ∧ l.functions[r.function.index]? = some f ∧
    f.signature.bind f.name b.defaults args before = .ok bindings after ∧
    m.store.heap.cell? r.frame = some (.frame frame) ∧ frame.vars = .ofList bindings

/-- All calls of a journal were opened in this way. -/
def Journaled (l : Library) : List Deed → Prop
  | [] => True
  | .made .. :: earlier => Journaled l earlier
  | .opened callee args r m :: earlier => Opened l earlier callee args r m ∧ Journaled l earlier

namespace History

/-- The history describes a frame: it is the frame of a call, linked to the frame of the call in which the
function was made, and its variables are those that the call has assigned. -/
structure Describes (l : Library) (word : String → Prop) (H : History) (h : Heap) (a : Address)
    (f : Frame) (r : CallRecord) (L : Lineage) : Prop where
  origin : H.origin a = r :: L
  frame : r.frame = a
  parent : f.parent = L.frame?
  live : L.Live H h
  belongs : Belongs l word L r.function
  assigned : ∀ x, x ∈ f.vars.keys ↔ x ∈ H.assigned r

/-- The history tells of each frame and each function value where it stems from. -/
structure Tracks (l : Library) (word : String → Prop) (H : History) (h : Heap) : Prop where
  frame : ∀ {a f}, h.cell? a = some (.frame f) → ∃ r L, H.Describes l word h a f r L
  closure : ∀ {a c}, h.cell? a = some (.closure c) →
    c.frame = (H.origin a).frame? ∧ (H.origin a).Live H h ∧ Belongs l word (H.origin a) c.function
  birth : ∀ {a c}, h.cell? a = some (.closure c) →
    birth? a H.journal = some ⟨H.origin a, c.function, c.defaults⟩
  journal : Journaled l H.journal

end History

theorem Journaled.mono {l l' : Library} (hl : Extends l.functions l'.functions) {journal : List Deed}
    (h : Journaled l journal) : Journaled l' journal := by
  induction journal with
  | nil => trivial
  | cons d earlier ih =>
    cases d with
    | made => exact ih h
    | opened callee args r m =>
      obtain ⟨⟨a, b, f, before, bindings, after, frame, hv, hb, same, hf, rest⟩, h⟩ := h
      exact ⟨⟨a, b, f, before, bindings, after, frame, hv, hb, same, hl hf, rest⟩, ih h⟩

/-- The machine is sound, knows the given words, and is tracked by the history. -/
structure Machine.Tracked (l : Library) (word : String → Prop) (m : Machine) (H : History) : Prop where
  sound : m.Sound l
  words : ∀ x, word x → x ∈ m.store.lexicon.words
  tracks : H.Tracks l word m.store.heap

/-- At a moment, the machine is in order and the code that runs may ask for what it asks. -/
structure Moment.Right (l : Library) (word : String → Prop) (μ : Moment) : Prop where
  library : μ.activation.library = l
  frame : μ.activation.frame = μ.lineage.frame?
  tracked : μ.machine.Tracked l word μ.history
  live : μ.lineage.Live μ.history μ.machine.store.heap
  need : ∀ need ∈ μ.need, Asked l word μ.lineage need
  operands : (μ.machine.store.view l).values μ.operands μ.operands

/-- The machine is in order and was so at all moments. -/
structure Watch.Sound (l : Library) (word : String → Prop) (w : Watch) : Prop where
  tracked : w.machine.Tracked l word w.history
  moments : ∀ μ ∈ w.moments, μ.Right l word

/-! ## Changes of the heap -/

section changes

variable {l : Library} {word : String → Prop} {H H' : History} {h h' : Heap} {L : Lineage}
  {a : Address} {f : Frame} {r : CallRecord}

/-- A lineage stays live while the origins of frames do and frames stay frames. -/
theorem Lineage.Live.imp (hL : L.Live H h)
    (keep : ∀ {a f}, h.cell? a = some (.frame f) →
      H'.origin a = H.origin a ∧ ∃ g, h'.cell? a = some (.frame g)) : L.Live H' h' := by
  intro r hr
  obtain ⟨origin, f, hf⟩ := hL r hr
  obtain ⟨same, g, hg⟩ := keep hf
  exact ⟨same.trans origin, g, hg⟩

theorem Lineage.live_nil (H : History) (h : Heap) : Lineage.Live [] H h := by
  intro r hr
  cases hr

/-- The lineage of a frame that the history describes is live. -/
theorem History.Describes.live_cons
    (d : H.Describes l word h a f r L) (hf : h.cell? a = some (.frame f)) : Lineage.Live (r :: L) H h := by
  intro q hq
  cases hq
  exact ⟨d.frame ▸ d.origin, f, d.frame ▸ hf⟩

/-- The frames and function values of the second heap are those of the first, up to the variables and the
capture of frames whose assignments are recorded. -/
theorem History.Tracks.imp (T : H.Tracks l word h)
    (keep : ∀ {a f}, h.cell? a = some (.frame f) →
      H'.origin a = H.origin a ∧ ∃ g, h'.cell? a = some (.frame g))
    (frames : ∀ {a g}, h'.cell? a = some (.frame g) → ∃ f, h.cell? a = some (.frame f) ∧
      g.parent = f.parent ∧ ∀ {r L}, H.origin a = r :: L → r.frame = a →
        (∀ x, x ∈ f.vars.keys ↔ x ∈ H.assigned r) → ∀ x, x ∈ g.vars.keys ↔ x ∈ H'.assigned r)
    (closures : ∀ {a c}, h'.cell? a = some (.closure c) →
      h.cell? a = some (.closure c) ∧ H'.origin a = H.origin a) (journal : H'.journal = H.journal) :
    H'.Tracks l word h' where
  frame {a g} hg := by
    obtain ⟨f, hf, parent, assigned⟩ := frames hg
    obtain ⟨r, L, d⟩ := T.frame hf
    exact ⟨r, L, (keep hf).1.trans d.origin, d.frame, parent.trans d.parent, d.live.imp keep, d.belongs,
      assigned d.origin d.frame d.assigned⟩
  closure {a c} hc := by
    obtain ⟨hc, origin⟩ := closures hc
    rw [origin]
    exact ⟨(T.closure hc).1, (T.closure hc).2.1.imp keep, (T.closure hc).2.2⟩
  birth {a c} hc := by
    obtain ⟨hc, origin⟩ := closures hc
    rw [origin, journal]
    exact T.birth hc
  journal := journal ▸ T.journal

/-- What a quiet change of the store does to frames and function values: nothing. -/
theorem Store.Quiet.frame_iff {s s' : Store} (q : s.Quiet s') :
    s'.heap.cell? a = some (.frame f) ↔ s.heap.cell? a = some (.frame f) := by
  constructor
  · intro hf
    cases hc : s.heap.cell? a with
    | none => exact absurd rfl (q.new hc hf).1
    | some c =>
      obtain ⟨c', hc', e⟩ := q.kept hc
      rw [hf] at hc'
      cases hc'
      cases e with
      | same => rfl
      | frame hown => exact hown.elim
  · intro hf
    obtain ⟨c', hc', e⟩ := q.kept hf
    exact e.frame_eq id ▸ hc'

theorem Store.Quiet.closure_of {s s' : Store} (q : s.Quiet s') {c : Heap.Closure}
    (hc : s'.heap.cell? a = some (.closure c)) : s.heap.cell? a = some (.closure c) := by
  cases hd : s.heap.cell? a with
  | none => exact absurd rfl (q.new hd hc).2
  | some d =>
    obtain ⟨d', hd', e⟩ := q.kept hd
    rw [hc] at hd'
    cases hd'
    cases e
    rfl

theorem History.Tracks.quiet {s s' : Store} (T : H.Tracks l word s.heap) (q : s.Quiet s') : H.Tracks l word s'.heap :=
  T.imp (fun hf => ⟨rfl, _, q.frame_iff.2 hf⟩)
    (fun hg => ⟨_, q.frame_iff.1 hg, rfl, fun _ _ h => h⟩) (fun hc => ⟨q.closure_of hc, rfl⟩) rfl

/-- A frame of the second heap, if the first one differs from it only in the frame at `a`. -/
theorem frame_of_update {b : Address} {g g' : Frame} {change : Cell → Cell}
    (hf : h.cell? a = some (.frame f)) (hg : change (.frame f) = .frame g)
    (hb : (h.update a change).cell? b = some (.frame g')) :
    (a = b ∧ g' = g) ∨ (a ≠ b ∧ h.cell? b = some (.frame g')) := by
  rw [Heap.cell?_update] at hb
  split at hb
  · rename_i hab
    subst hab
    rw [hf, Option.map_some, hg] at hb
    cases hb
    exact .inl ⟨rfl, rfl⟩
  · rename_i hab
    exact .inr ⟨hab, hb⟩

/-- The history goes on tracking a heap in which a frame has changed, if it records the variables that have
been assigned. -/
theorem History.Tracks.frame_changed {g : Frame} {change : Cell → Cell}
    (T : H.Tracks l word h) (hf : h.cell? a = some (.frame f)) (hg : change (.frame f) = .frame g)
    (parent : g.parent = f.parent) (origin : H'.origin = H.origin)
    (own : ∀ {r L}, H.origin a = r :: L → (∀ x, x ∈ f.vars.keys ↔ x ∈ H.assigned r) →
      ∀ x, x ∈ g.vars.keys ↔ x ∈ H'.assigned r)
    (others : ∀ r, r.frame ≠ a → H'.assigned r = H.assigned r) (journal : H'.journal = H.journal) :
    H'.Tracks l word (h.update a change) := by
  refine T.imp (fun {b f'} hb => ⟨by rw [origin], ?_⟩) (fun {b g'} hb => ?_) (fun {b c} hb => ?_) journal
  · rw [Heap.cell?_update, hb]
    split
    · rename_i hab
      subst hab
      rw [hf] at hb
      cases hb
      exact ⟨g, congrArg some hg⟩
    · exact ⟨f', rfl⟩
  · obtain ⟨rfl, rfl⟩ | ⟨hab, hb⟩ := frame_of_update hf hg hb
    · exact ⟨f, hf, parent, fun horigin _ => own horigin⟩
    · refine ⟨g', hb, rfl, fun {r L} _ hr hx => ?_⟩
      rw [others r (fun h => hab (h.symm.trans hr))]
      exact hx
  · rw [Heap.cell?_update] at hb
    split at hb
    · rename_i hab
      subst hab
      rw [hf, Option.map_some, hg] at hb
      cases hb
    · exact ⟨hb, by rw [origin]⟩

/-- A variable of the running call is assigned. -/
theorem History.Tracks.stored (T : H.Tracks l word h)
    (hf : h.cell? r.frame = some (.frame f)) (hr : H.origin r.frame = r :: L) (x : String) (v : Value) :
    (H.stored r x).Tracks l word (h.update r.frame (Cell.assign x v)) := by
  refine T.frame_changed hf rfl rfl rfl (fun {q L'} hq hx y => ?_) (fun q hq => ?_) rfl
  · obtain ⟨rfl, -⟩ := List.cons.inj (hr.symm.trans hq)
    rw [OrderedMap.mem_keys_insert, hx y]
    simp [History.stored]
  · have : q ≠ r := fun h => hq (h ▸ rfl)
    simp [History.stored, this]

/-- A function is made in the running call: its frame is captured. -/
theorem History.Tracks.capture (T : H.Tracks l word h)
    (hf : h.cell? a = some (.frame f)) : H.Tracks l word (h.update a Cell.capture) :=
  T.frame_changed hf rfl rfl rfl (fun _ hx => hx) (fun _ _ => rfl) rfl

/-- A live lineage does not end in a slot that is empty. -/
theorem Lineage.Live.of_placed {c : Cell} (hL : L.Live H h) (p : h.Placed c a h')
    (origin : ∀ b, b ≠ a → H'.origin b = H.origin b) : L.Live H' h' := by
  refine hL.imp fun {b f} hb => ⟨origin b ?_, f, p.cell?_of_some hb⟩
  rintro rfl
  simp [p.fresh] at hb

/-- The frames and function values of a heap with a new object are those that were there, and the new one. -/
theorem History.Tracks.placed {c : Cell} (T : H.Tracks l word h) (p : h.Placed c a h')
    (origin : ∀ b, b ≠ a → H'.origin b = H.origin b) (assigned : ∀ r, r.frame ≠ a → H'.assigned r = H.assigned r)
    (frame : ∀ f, c = .frame f → ∃ r L, H'.Describes l word h' a f r L)
    (closure : ∀ d, c = .closure d →
      d.frame = (H'.origin a).frame? ∧ (H'.origin a).Live H' h' ∧
        Belongs l word (H'.origin a) d.function ∧
        birth? a H'.journal = some ⟨H'.origin a, d.function, d.defaults⟩)
    (birth : ∀ b, b ≠ a → birth? b H'.journal = birth? b H.journal)
    (journal : Journaled l H'.journal) : H'.Tracks l word h' where
  frame {b f} hb := by
    rw [p.cell?] at hb
    split at hb
    · rename_i hab
      subst hab
      exact frame f (Option.some.inj hb)
    · rename_i hab
      obtain ⟨r, L, d⟩ := T.frame hb
      refine ⟨r, L, (origin b (Ne.symm hab)).trans d.origin, d.frame, d.parent,
        d.live.of_placed p origin, d.belongs, fun x => ?_⟩
      rw [assigned r (by rw [d.frame]; exact Ne.symm hab)]
      exact d.assigned x
  closure {b d} hb := by
    rw [p.cell?] at hb
    split at hb
    · rename_i hab
      subst hab
      obtain ⟨frame, live, belongs, -⟩ := closure d (Option.some.inj hb)
      exact ⟨frame, live, belongs⟩
    · rename_i hab
      rw [origin b (Ne.symm hab)]
      exact ⟨(T.closure hb).1, (T.closure hb).2.1.of_placed p origin, (T.closure hb).2.2⟩
  birth {b d} hb := by
    rw [p.cell?] at hb
    split at hb
    · rename_i hab
      subst hab
      exact (closure d (Option.some.inj hb)).2.2.2
    · rename_i hab
      rw [origin b (Ne.symm hab), birth b (Ne.symm hab)]
      exact T.birth hb
  journal := journal

/-- A function value is made in a call of lineage `L`. -/
theorem History.Tracks.made {c : Heap.Closure} (T : H.Tracks l word h)
    (p : h.Placed (.closure c) a h') (frame : c.frame = L.frame?) (live : L.Live H h)
    (belongs : Belongs l word L c.function) : (H.made a L c.function c.defaults).Tracks l word h' := by
  have origin : ∀ b, b ≠ a → (H.made a L c.function c.defaults).origin b = H.origin b :=
    fun b hb => if_neg hb
  refine T.placed p origin (fun _ _ => rfl) (fun _ hf => nomatch hf) (fun d hd => ?_)
    (fun b hb => if_neg (Ne.symm hb)) T.journal
  cases hd
  have here : (H.made a L c.function c.defaults).origin a = L := if_pos rfl
  rw [here]
  exact ⟨frame, live.of_placed p origin, belongs, if_pos rfl⟩

/-- A call of a function that was made in a call of lineage `L` is opened. -/
theorem History.Tracks.opened {params : List String} {callee : Value}
    {args : Args} {m : Machine} (T : H.Tracks l word h) (p : h.Placed (.frame f) r.frame h')
    (parent : f.parent = L.frame?) (live : L.Live H h) (belongs : Belongs l word L r.function)
    (vars : ∀ x, x ∈ f.vars.keys ↔ x ∈ params) (opened : Opened l H.journal callee args r m) :
    (H.opened r L params callee args m).Tracks l word h' ∧
      Lineage.Live (r :: L) (H.opened r L params callee args m) h' := by
  have origin : ∀ b, b ≠ r.frame → (H.opened r L params callee args m).origin b = H.origin b :=
    fun b hb => if_neg hb
  have d : (H.opened r L params callee args m).Describes l word h' r.frame f r L :=
    ⟨if_pos rfl, rfl, parent, live.of_placed p origin, belongs, by simpa [History.opened] using vars⟩
  refine ⟨T.placed p origin (fun q hq => ?_) (fun g hg => ?_) (fun _ hc => nomatch hc) (fun _ _ => rfl)
    ⟨opened, T.journal⟩, d.live_cons p.cell?_self⟩
  · have : q ≠ r := fun h => hq (h ▸ rfl)
    simp [History.opened, this]
  · cases hg
    exact ⟨r, L, d⟩

/-- The history goes on tracking a heap from which objects go away that the remaining ones do not refer to. -/
theorem History.Tracks.restrict {s s' : Store} (T : H.Tracks l word s.heap) (sound : s'.Sound l)
    (sub : ∀ {a c}, s'.heap.cell? a = some c → s.heap.cell? a = some c) : H.Tracks l word s'.heap := by
  have live {L : Lineage} {p : Option Address} (hp : p.Rel (s'.view l).captured p)
      (hL : p = L.frame?) (was : L.Live H s.heap) : L.Live H s'.heap := by
    intro r hr
    have : p = some r.frame := by rw [hL, Lineage.frame?, hr]; rfl
    subst this
    cases hp with
    | some hcap =>
      obtain ⟨-, f, hf, -⟩ := hcap
      exact ⟨(was r hr).1, f, hf⟩
  refine ⟨fun {a f} hf => ?_, fun {a c} hc => ?_, fun hc => T.birth (sub hc), T.journal⟩
  · obtain ⟨r, L, d⟩ := T.frame (sub hf)
    exact ⟨r, L, d.origin, d.frame, d.parent, live (sound.frame hf).parent d.parent d.live, d.belongs,
      d.assigned⟩
  · obtain ⟨frame, was, belongs⟩ := T.closure (sub hc)
    have hcell := sound.object hc Heap.CellKind.noConfusion
    cases hcell with
    | closure _ _ captured => exact ⟨frame, live captured frame was, belongs⟩

end changes

end Scriptlet
