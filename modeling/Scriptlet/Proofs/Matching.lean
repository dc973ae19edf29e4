import Scriptlet.Call.Args
import Scriptlet.Heap.Edit
import Scriptlet.Proofs.Simulation
import Scriptlet.Proofs.Data.Maps
import Scriptlet.Proofs.Heap.Slots

/-!
# Matching heaps

A matching says which objects and frames of two heaps stand for each other. Values match if they are the same
data, or refer to objects that stand for each other; heaps match if all that stands for each other has matching
contents. A heap matches itself if it refers to nothing but live objects, so matching also serves as the
well-formedness of one heap.

Values never refer to a frame. Function values and frames refer to frames, but only to those in whose calls a
function was made: such a frame is not released when its call is over.
-/

namespace Scriptlet

open Call (Args)
open Heap (Cell Edit Frame)

/-- A container that is not frozen. -/
inductive Heap.Cell.Mutable : Cell → Prop where
  | list (items : Array Value) : Mutable (.list items false)
  | dict (entries : OrderedMap Key (Value × Value)) : Mutable (.dict entries false)

/-- There is a container at an address that is not frozen. -/
def Heap.MutableAt (h : Heap) (a : Address) : Prop := ∃ c, h.cell? a = some c ∧ c.Mutable

/-- What stands for each other in two heaps, and what both sides know. -/
structure Matching where
  /-- Objects that values refer to. -/
  object : Address → Address → Prop
  /-- The variables of calls. -/
  frame : Address → Address → Prop
  /-- The frames among them in whose calls a function was made. -/
  captured : Address → Address → Prop
  /-- The words that are known. -/
  word : String → Prop
  /-- The host functions there are. -/
  native : NativeId → Prop
  /-- The definitions that stand for each other, with the number of their default values. -/
  function : FunctionId → FunctionId → Nat → Prop

namespace Matching

/-- All that stands for each other in the first matching does so in the second. -/
structure Le (M N : Matching) : Prop where
  object : ∀ {a b}, M.object a b → N.object a b
  frame : ∀ {a b}, M.frame a b → N.frame a b
  captured : ∀ {a b}, M.captured a b → N.captured a b
  word : ∀ {s}, M.word s → N.word s
  native : ∀ {id}, M.native id → N.native id
  function : ∀ {id id' n}, M.function id id' n → N.function id id' n

theorem Le.refl (M : Matching) : Le M M := ⟨id, id, id, id, id, id⟩

theorem Le.trans {M N P : Matching} (h : Le M N) (h' : Le N P) : Le M P :=
  ⟨h'.object ∘ h.object, h'.frame ∘ h.frame, h'.captured ∘ h.captured, h'.word ∘ h.word,
    h'.native ∘ h.native, h'.function ∘ h.function⟩

/-! ## Values, objects and frames -/

/-- Two values are the same data, or refer to objects that stand for each other. -/
inductive value (M : Matching) : Value → Value → Prop where
  | none : M.value .none .none
  | bool (b : Bool) : M.value (.bool b) (.bool b)
  | int (n : Integer) : M.value (.int n) (.int n)
  | text {s : String} (h : M.word s) : M.value (.text s) (.text s)
  | ref {a b : Address} (h : M.object a b) : M.value (.ref a) (.ref b)
  | native {id : NativeId} (h : M.native id) : M.value (.native id) (.native id)

/-- Two lists of values match item by item. -/
abbrev values (M : Matching) : List Value → List Value → Prop := List.Forall₂ M.value

/-- Two entries of dictionaries have matching indices and values. -/
def entry (M : Matching) (_ : Key) (e f : Value × Value) : Prop :=
  M.value e.1 f.1 ∧ M.value e.2 f.2

/-- The name of a variable or field is known and its values match. -/
def binding (M : Matching) (x : String) (v w : Value) : Prop := M.word x ∧ M.value v w

/-- Two lists of named values have the same names and matching values. -/
abbrev bindings (M : Matching) : List (String × Value) → List (String × Value) → Prop :=
  List.Forall₂ (OrderedMap.EntryMatch M.binding)

theorem forall₂_set {α β : Type} {R : α → β → Prop} {vs : List α} {ws : List β}
    (h : List.Forall₂ R vs ws) (i : Nat) {v : α} {w : β} (hv : R v w) : List.Forall₂ R (vs.set i v) (ws.set i w) := by
  induction h generalizing i with
  | nil => exact .nil
  | cons hab h ih =>
    cases i with
    | zero => exact .cons hv h
    | succ i => exact .cons hab (ih i)

theorem rel_imp {α β : Type} {R S : α → β → Prop} (h : ∀ {a b}, R a b → S a b) {p : Option α}
    {q : Option β} (hp : p.Rel R q) : p.Rel S q := by
  cases hp with
  | some hab => exact .some (h hab)
  | none => exact .none

/-- Two objects that are not frames have the same shape and matching parts. -/
inductive cell (M : Matching) : Cell → Cell → Prop where
  | text (s : String) : M.cell (.text s) (.text s)
  | list {vs ws : Array Value} (frozen : Bool) (h : M.values vs.toList ws.toList) :
    M.cell (.list vs frozen) (.list ws frozen)
  | tuple {vs ws : Array Value} (h : M.values vs.toList ws.toList) :
    M.cell (.tuple vs) (.tuple ws)
  | dict {es fs : OrderedMap Key (Value × Value)} (frozen : Bool) (h : es.Matches M.entry fs) :
    M.cell (.dict es frozen) (.dict fs frozen)
  | struct {es fs : OrderedMap String Value} (h : es.Matches M.binding fs) :
    M.cell (.struct es) (.struct fs)
  | closure {id id' : FunctionId} {vs ws : List Value} {p q : Option Address}
    (known : M.function id id' vs.length) (defaults : M.values vs ws) (frame : p.Rel M.captured q) :
    M.cell (.closure ⟨id, vs, p⟩) (.closure ⟨id', ws, q⟩)
  | method {v w : Value} {id : NativeId} (receiver : M.value v w) (known : M.native id) :
    M.cell (.method ⟨v, id⟩) (.method ⟨w, id⟩)

/-- Two objects match and are no function values. -/
def plain (M : Matching) (c d : Cell) : Prop := M.cell c d ∧ c.kind ≠ .closure

/-- Two changes of a container put matching values into it. -/
inductive edit (M : Matching) : Edit → Edit → Prop where
  | setItem (i : Nat) {v w : Value} (h : M.value v w) : M.edit (.setItem i v) (.setItem i w)
  | extend {vs ws : List Value} (h : M.values vs ws) : M.edit (.extend vs) (.extend ws)
  | clear : M.edit .clear .clear
  | setEntry (k : Key) {i j v w : Value} (hi : M.value i j) (h : M.value v w) :
    M.edit (.setEntry k i v) (.setEntry k j w)

/-- Two frames have matching variables and parents. -/
structure frames (M : Matching) (f g : Frame) : Prop where
  vars : f.vars.Matches M.binding g.vars
  parent : f.parent.Rel M.captured g.parent
  captured : f.captured = g.captured

/-- Two argument lists match. -/
structure args (M : Matching) (a b : Args) : Prop where
  positional : M.values a.positional b.positional
  keywords : M.bindings a.keywords b.keywords

section mono

variable {M N : Matching}

theorem value.mono (h : Le M N) {v w : Value} (hv : M.value v w) : N.value v w := by
  cases hv with
  | none => exact .none
  | bool b => exact .bool b
  | int n => exact .int n
  | text hs => exact .text (h.word hs)
  | ref ha => exact .ref (h.object ha)
  | native hn => exact .native (h.native hn)

theorem values.mono (h : Le M N) {vs ws : List Value} (hv : M.values vs ws) : N.values vs ws :=
  List.Forall₂.imp (fun _ _ => value.mono h) hv

theorem entry.mono (h : Le M N) {k : Key} {e f : Value × Value} (he : M.entry k e f) : N.entry k e f :=
  ⟨he.1.mono h, he.2.mono h⟩

theorem binding.mono (h : Le M N) {x : String} {v w : Value} (hv : M.binding x v w) : N.binding x v w :=
  ⟨h.word hv.1, hv.2.mono h⟩

theorem bindings.mono (h : Le M N) {es fs : List (String × Value)} (he : M.bindings es fs) : N.bindings es fs :=
  List.Forall₂.imp (fun _ _ he => ⟨he.1, he.2.mono h⟩) he

theorem cell.mono (h : Le M N) {c d : Cell} (hc : M.cell c d) : N.cell c d := by
  cases hc with
  | text s => exact .text s
  | list frozen hv => exact .list frozen (values.mono h hv)
  | tuple hv => exact .tuple (values.mono h hv)
  | dict frozen he => exact .dict frozen (he.imp fun _ _ _ => entry.mono h)
  | struct he => exact .struct (he.imp fun _ _ _ => binding.mono h)
  | closure known defaults frame =>
    exact .closure (h.function known) (values.mono h defaults) (rel_imp h.captured frame)
  | method receiver known => exact .method (receiver.mono h) (h.native known)

/-- An object that matches another one is no frame. -/
theorem cell.kind_ne_frame {c d : Cell} (h : M.cell c d) : c.kind ≠ .frame ∧ d.kind ≠ .frame := by
  cases h <;> exact ⟨Heap.CellKind.noConfusion, Heap.CellKind.noConfusion⟩

/-- Matching changes of matching objects give matching objects. -/
theorem edit.apply {e f : Edit} (he : M.edit e f) {c d : Cell} (hc : M.cell c d) : M.cell (e.apply c) (f.apply d) := by
  cases he with
  | setItem i hv =>
    cases hc with
    | list frozen hi =>
      refine .list frozen ?_
      rw [Array.toList_setIfInBounds, Array.toList_setIfInBounds]
      exact forall₂_set hi i hv
    | _ => constructor <;> assumption
  | extend hv =>
    cases hc with
    | list frozen hi =>
      refine .list frozen ?_
      rw [Array.toList_appendList, Array.toList_appendList]
      exact List.rel_append hi hv
    | _ => constructor <;> assumption
  | clear =>
    cases hc with
    | list frozen hi => exact .list frozen .nil
    | _ => constructor <;> assumption
  | setEntry k hi hv =>
    cases hc with
    | dict frozen hes => exact .dict frozen (hes.insert ⟨hi, hv⟩)
    | _ => constructor <;> assumption

/-- Frozen, matching objects still match. -/
theorem cell.freeze {c d : Cell} (hc : M.cell c d) : M.cell c.freeze d.freeze := by
  cases hc with
  | list frozen hv => exact .list true hv
  | dict frozen he => exact .dict true he
  | _ => constructor <;> assumption

theorem edit.mono (h : Le M N) {e f : Edit} (he : M.edit e f) : N.edit e f := by
  cases he with
  | setItem i hv => exact .setItem i (hv.mono h)
  | extend hv => exact .extend (values.mono h hv)
  | clear => exact .clear
  | setEntry k hi hv => exact .setEntry k (hi.mono h) (hv.mono h)

theorem frames.mono (h : Le M N) {f g : Frame} (hf : M.frames f g) : N.frames f g :=
  ⟨hf.vars.imp fun _ _ _ => binding.mono h, rel_imp h.captured hf.parent, hf.captured⟩

theorem args.mono (h : Le M N) {a b : Args} (hab : M.args a b) : N.args a b :=
  ⟨values.mono h hab.positional, bindings.mono h hab.keywords⟩

end mono

/-! ## Keeping a part -/

/-- All that stands for each other in the first matching and is among `on` does so in the second, which knows
all that the first one knows. -/
structure Keeps (M N : Matching) (on : Address → Prop) : Prop where
  object : ∀ {a b}, on a → M.object a b → N.object a b
  captured : ∀ {a b}, on a → M.captured a b → N.captured a b
  word : ∀ {s}, M.word s → N.word s
  native : ∀ {id}, M.native id → N.native id
  function : ∀ {id id' n}, M.function id id' n → N.function id id' n

namespace Keeps

variable {M N : Matching} {on : Address → Prop}

theorem value (K : M.Keeps N on) {v w : Value} (hv : M.value v w)
    (h : ∀ a, v.address? = some a → on a) : N.value v w := by
  cases hv with
  | none => exact .none
  | bool b => exact .bool b
  | int n => exact .int n
  | text hs => exact .text (K.word hs)
  | ref hab => exact .ref (K.object (h _ rfl) hab)
  | native hn => exact .native (K.native hn)

theorem values (K : M.Keeps N on) {vs ws : List Value} (hv : M.values vs ws)
    (h : ∀ a ∈ vs.filterMap Value.address?, on a) : N.values vs ws := by
  induction hv with
  | nil => exact .nil
  | @cons v w vs ws hvw _ ih =>
    refine .cons (K.value hvw fun a ha => h a ?_) (ih fun a ha => h a ?_)
    · exact List.mem_filterMap.2 ⟨v, List.mem_cons_self, ha⟩
    · obtain ⟨u, hu, ha⟩ := List.mem_filterMap.1 ha
      exact List.mem_filterMap.2 ⟨u, List.mem_cons_of_mem _ hu, ha⟩

theorem rel_captured (K : M.Keeps N on) {p q : Option Address} (hp : p.Rel M.captured q)
    (h : ∀ a ∈ p.toList, on a) : p.Rel N.captured q := by
  cases hp with
  | some hab => exact .some (K.captured (h _ (by simp)) hab)
  | none => exact .none

theorem cell (K : M.Keeps N on) {c d : Cell} (hc : M.cell c d) (h : ∀ a ∈ c.children, on a) : N.cell c d := by
  rw [Cell.children, List.forall_mem_append] at h
  obtain ⟨hf, hv⟩ := h
  cases hc with
  | text s => exact .text s
  | list frozen hi => exact .list frozen (K.values hi hv)
  | tuple hi => exact .tuple (K.values hi hv)
  | dict frozen he =>
    refine .dict frozen (he.imp_values fun k e f hmem hef => ?_)
    have on_address : ∀ u ∈ [e.1, e.2], ∀ a, u.address? = some a → on a := fun u hu a ha =>
      hv a (List.mem_filterMap.2 ⟨u, List.mem_flatMap.2 ⟨e, hmem, hu⟩, ha⟩)
    exact ⟨K.value hef.1 (on_address _ (by simp)), K.value hef.2 (on_address _ (by simp))⟩
  | struct he =>
    refine .struct (he.imp_values fun k v w hmem hvw => ⟨K.word hvw.1, K.value hvw.2 fun a ha => ?_⟩)
    exact hv a (List.mem_filterMap.2 ⟨v, hmem, ha⟩)
  | closure known defaults frame =>
    exact .closure (K.function known) (K.values defaults hv) (K.rel_captured frame hf)
  | @method v w id receiver known =>
    refine .method (K.value receiver fun a ha => ?_) (K.native known)
    exact hv a (List.mem_filterMap.2 ⟨v, by simp [Cell.values], ha⟩)

theorem frames (K : M.Keeps N on) {f g : Frame} (hf : M.frames f g)
    (h : ∀ a ∈ (Cell.frame f).children, on a) : N.frames f g := by
  rw [Cell.children, List.forall_mem_append] at h
  refine ⟨hf.vars.imp_values fun k v w hmem hvw => ⟨K.word hvw.1, K.value hvw.2 fun a ha => ?_⟩,
    K.rel_captured hf.parent h.1, hf.captured⟩
  exact h.2 a (List.mem_filterMap.2 ⟨v, hmem, ha⟩)

end Keeps

end Matching

/-! ## Heaps -/

/-- Two heaps match: what stands for each other is there on both sides, with matching contents, and nothing
stands for two things. -/
structure Alike (M : Matching) (h h' : Heap) : Prop where
  object : ∀ {a b}, M.object a b →
    ∃ c d, h.cell? a = some c ∧ h'.cell? b = some d ∧ M.cell c d
  frame : ∀ {a b}, M.frame a b →
    ∃ f g, h.cell? a = some (.frame f) ∧ h'.cell? b = some (.frame g) ∧ M.frames f g
  captured : ∀ {a b}, M.captured a b →
    M.frame a b ∧ ∀ f, h.cell? a = some (.frame f) → f.captured = true
  object_unique : ∀ {a b a' b'}, M.object a b → M.object a' b' → (a = a' ↔ b = b')
  frame_unique : ∀ {a b a' b'}, M.frame a b → M.frame a' b' → (a = a' ↔ b = b')

namespace Alike

variable {M : Matching} {h h' : Heap}

theorem read (A : Alike M h h') {a b : Address} (hab : M.object a b) : Agree M.cell (h.read a) (h'.read b) := by
  obtain ⟨c, d, hc, hd, hcd⟩ := A.object hab
  rw [Heap.read_of_cell? hc, Heap.read_of_cell? hd]
  exact .ok hcd

/-- Values that match the same objects are the same on one side exactly if they are on the other. -/
theorem value_unique (A : Alike M h h') {v w v' w' : Value} (hv : M.value v w)
    (hv' : M.value v' w') : v = v' ↔ w = w' := by
  cases hv <;> cases hv' <;> simp only [Value.ref.injEq, reduceCtorEq]
  case ref.ref hab _ _ hab' => exact A.object_unique hab hab'

end Alike

end Scriptlet
