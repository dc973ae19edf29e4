import Scriptlet.Proofs.ItemAssignment
import Scriptlet.Proofs.Likeness
import Scriptlet.Proofs.Object.Growing

/-!
# String storage

Two heaps may hold the same objects and differ in how their strings are stored: here in the program and there on the
heap, here one string in many places and there many strings with one text. No operation on values notices the difference.
From values that are the same it makes values that are the same, or it raises the same exception, and it leaves heaps that
hold the same objects.
-/

namespace Scriptlet

open Heap (Cell Edit)

/-! ## Two heaps with the same objects -/

/-- Two heaps, and the objects in them that stand for each other. -/
structure Twins where
  left : Heap
  right : Heap
  /-- No string stands for another one: it is the same as all strings with its text. -/
  stands : Address → Address → Prop

namespace Twins

/-- Two values that are no strings are the same data, or refer to objects that stand for each other. -/
inductive plain (T : Twins) : Value → Value → Prop where
  | none : T.plain .none .none
  | bool (b : Bool) : T.plain (.bool b) (.bool b)
  | int (n : Integer) : T.plain (.int n) (.int n)
  | native (id : NativeId) : T.plain (.native id) (.native id)
  | ref {a b : Address} (stands : T.stands a b) : T.plain (.ref a) (.ref b)

/-- Two values are the same up to storage: strings with the same text, or no strings and the same. -/
inductive value (T : Twins) : Value → Value → Prop where
  | string {v w : Value} {s : String} (left : v.text? T.left = .ok (some s)) (right : w.text? T.right = .ok (some s)) :
    T.value v w
  | plain {v w : Value} (same : T.plain v w) : T.value v w

/-- Two objects that are no strings have the same shape, and parts that are the same. -/
inductive cell (T : Twins) : Cell → Cell → Prop where
  | list {vs ws : Array Value} (frozen : Bool) (items : List.Forall₂ T.value vs.toList ws.toList) :
    T.cell (.list vs frozen) (.list ws frozen)
  | tuple {vs ws : Array Value} (items : List.Forall₂ T.value vs.toList ws.toList) : T.cell (.tuple vs) (.tuple ws)
  | dict {es fs : OrderedMap Key (Value × Value)} (frozen : Bool)
      (entries : es.Matches (fun _ e f => T.value e.1 f.1 ∧ T.value e.2 f.2) fs) :
    T.cell (.dict es frozen) (.dict fs frozen)
  | struct {es fs : OrderedMap String Value} (fields : es.Matches (fun _ => T.value) fs) :
    T.cell (.struct es) (.struct fs)
  | closure (id : FunctionId) {vs ws : List Value} {p q : Option Address} (defaults : List.Forall₂ T.value vs ws)
      (frame : p.Rel T.stands q) : T.cell (.closure ⟨id, vs, p⟩) (.closure ⟨id, ws, q⟩)
  | method {v w : Value} (receiver : T.value v w) (id : NativeId) : T.cell (.method ⟨v, id⟩) (.method ⟨w, id⟩)
  | frame {es fs : OrderedMap String Value} {p q : Option Address} (vars : es.Matches (fun _ => T.value) fs)
      (parent : p.Rel T.stands q) (captured : Bool) : T.cell (.frame ⟨es, p, captured⟩) (.frame ⟨fs, q, captured⟩)

/-- The two heaps hold the same graph of objects: those that are no strings stand for each other one for one, with the
same contents. The heaps also grant the same allocations. -/
structure SameGraph (T : Twins) : Prop where
  cells : ∀ {a b}, T.stands a b → ∃ c d, T.left.cell? a = some c ∧ T.right.cell? b = some d ∧ T.cell c d
  unique : ∀ {a b a' b'}, T.stands a b → T.stands a' b' → (a = a' ↔ b = b')
  left_total : ∀ {a c}, T.left.cell? a = some c → c.kind ≠ .text → ∃ b, T.stands a b
  right_total : ∀ {b d}, T.right.cell? b = some d → d.kind ≠ .text → ∃ a, T.stands a b
  left_tidy : T.left.Tidy
  right_tidy : T.right.Tidy
  meters : T.left.meter = T.right.meter ∨ T.left.meter.Unlimited ∧ T.right.meter.Unlimited

/-- All that was the same before still is: objects that stand for each other still do, and strings keep their text. -/
structure Keeps (T U : Twins) : Prop where
  stands : ∀ {a b}, T.stands a b → U.stands a b
  left : ∀ {a s}, T.left.cell? a = some (.text s) → U.left.cell? a = some (.text s)
  right : ∀ {b s}, T.right.cell? b = some (.text s) → U.right.cell? b = some (.text s)

/-- Two runs beside each other, on heaps that hold the same graph. -/
def beside : Simulation Heap Heap Twins where
  le := Keeps
  refl _ := ⟨id, id, id⟩
  trans first second := ⟨second.stands ∘ first.stands, second.left ∘ first.left, second.right ∘ first.right⟩
  states T h h' := T.left = h ∧ T.right = h' ∧ T.SameGraph

end Twins

/-! ## What stays the same -/

theorem Value.text?_of_kept {h k : Heap} {v : Value} {s : String}
    (kept : ∀ {a s}, h.cell? a = some (.text s) → k.cell? a = some (.text s)) (string : v.text? h = .ok (some s)) :
    v.text? k = .ok (some s) := by
  obtain rfl | ⟨a, rfl, read⟩ := eq_text_or_read string
  · rfl
  · simp only [text?, Heap.read_of_cell? (kept (Heap.cell?_of_read read))]
    rfl

namespace Twins

section keeps

variable {T U : Twins} {v w : Value} {c d : Cell}

theorem Keeps.value (keeps : T.Keeps U) (same : T.value v w) : U.value v w := by
  cases same with
  | string left right => exact .string (Value.text?_of_kept keeps.left left) (Value.text?_of_kept keeps.right right)
  | plain same =>
    refine .plain ?_
    cases same with
    | ref stands => exact .ref (keeps.stands stands)
    | _ => constructor

theorem Keeps.cell (keeps : T.Keeps U) (same : T.cell c d) : U.cell c d := by
  have values {vs ws : List Value} (items : List.Forall₂ T.value vs ws) : List.Forall₂ U.value vs ws :=
    items.imp fun _ _ => keeps.value
  cases same with
  | list frozen items => exact .list frozen (values items)
  | tuple items => exact .tuple (values items)
  | dict frozen entries =>
    exact .dict frozen (entries.imp fun _ _ _ parts => ⟨keeps.value parts.1, keeps.value parts.2⟩)
  | struct fields => exact .struct (fields.imp fun _ _ _ => keeps.value)
  | closure id defaults frame => exact .closure id (values defaults) (Matching.rel_imp keeps.stands frame)
  | method receiver id => exact .method (keeps.value receiver) id
  | frame vars parent captured =>
    exact .frame (vars.imp fun _ _ _ => keeps.value) (Matching.rel_imp keeps.stands parent) captured

end keeps

/-! ## What operations find out -/

section cells

variable {T : Twins} {c d : Cell}

theorem cell.like (same : T.cell c d) : c.Like T.value d := by
  cases same with
  | list frozen items => exact .list frozen items
  | tuple items => exact .tuple items
  | dict frozen entries => exact .dict frozen entries
  | struct fields => exact .struct fields
  | closure _ _ _ => exact .closure _ _
  | method _ _ => exact .method _ _
  | frame _ _ _ => exact .frame _ _

/-- The same assignment to objects with the same parts leaves them with the same parts. -/
theorem cell.edit (same : T.cell c d) {e f : Edit} (edits : e.Like T.value f) : T.cell (e.apply c) (f.apply d) := by
  cases edits with
  | setItem i value =>
    cases same with
    | list frozen items =>
      refine .list frozen ?_
      rw [Array.toList_setIfInBounds, Array.toList_setIfInBounds]
      exact Matching.forall₂_set items i value
    | _ => constructor <;> assumption
  | setEntry k index value =>
    cases same with
    | dict frozen entries => exact .dict frozen (entries.insert ⟨index, value⟩)
    | _ => constructor <;> assumption

/-- A new object that is no string has the same parts on both sides. -/
theorem cell_of_likeNew (made : c.LikeNew T.value d) (plain : c.kind ≠ .text ∨ d.kind ≠ .text) : T.cell c d := by
  cases made with
  | text s => exact absurd rfl (plain.elim id id)
  | list items => exact .list false items
  | tuple items => exact .tuple items

theorem size_of_likeNew (made : c.LikeNew T.value d) : c.size = d.size := by
  cases made with
  | text s => rfl
  | list items => simp only [Cell.size, size_eq_of_forall₂ items]
  | tuple items => simp only [Cell.size, size_eq_of_forall₂ items]

/-- Values that are the same up to storage are alike, so operations on values cannot tell them apart. -/
theorem SameGraph.likeness (G : T.SameGraph) : Likeness T.value T.left T.right where
  like same := by
    cases same with
    | string left right => exact .string left right
    | plain same =>
      refine .plain ?_
      cases same with
      | ref stands =>
        obtain ⟨c, d, hc, hd, same⟩ := G.cells stands
        exact .ref hc hd same.like
      | _ => constructor
  identity := by
    intro v v' w w' hv hw left left'
    cases hv with
    | string string _ => cases left.symm.trans string
    | plain hv =>
      cases hw with
      | string string _ => cases left'.symm.trans string
      | plain hw =>
        cases hv <;> cases hw <;> simp only [Value.ref.injEq, reduceCtorEq]
        case ref.ref first _ _ second => exact G.unique first second

end cells

/-! ## New objects and changes in place -/

section changes

variable {T : Twins} {k k' : Heap} {a b : Address} {c d : Cell}

/-- An allocation of the same object is refused on both sides, or fills a slot that held nothing on both sides. -/
theorem SameGraph.allocate_cases (G : T.SameGraph) (sizes : c.size = d.size) :
    (∃ e, Heap.allocate c T.left = .error (.raised e) T.left ∧ Heap.allocate d T.right = .error (.raised e) T.right) ∨
    ∃ a b k k', Heap.allocate c T.left = .ok a k ∧ Heap.allocate d T.right = .ok b k' ∧ T.left.Placed c a k ∧
      T.right.Placed d b k' ∧ (k.meter = k'.meter ∨ k.meter.Unlimited ∧ k'.meter.Unlimited) := by
  have left := Heap.allocate_cases G.left_tidy c
  have right := Heap.allocate_cases G.right_tidy d
  obtain same | ⟨free, free'⟩ := G.meters
  -- Meters that have counted the same refuse the same size, and count it in the same way.
  · rw [← same, ← sizes] at right
    cases charged : T.left.meter.charge c.size with
    | error use =>
      rw [charged] at left right
      obtain ⟨_, ⟨⟩, ha⟩ | ⟨_, _, _, ⟨⟩, -⟩ := left
      obtain ⟨_, ⟨⟩, hb⟩ | ⟨_, _, _, ⟨⟩, -⟩ := right
      exact .inl ⟨_, ha, hb⟩
    | ok meter =>
      rw [charged] at left right
      obtain ⟨_, ⟨⟩, -⟩ | ⟨_, a, k, ⟨⟩, ha, p, hk⟩ := left
      obtain ⟨_, ⟨⟩, -⟩ | ⟨_, b, k', ⟨⟩, hb, p', hk'⟩ := right
      exact .inr ⟨a, b, k, k', ha, hb, p, p', .inl (hk.trans hk'.symm)⟩
  -- Meters without limits may have counted differently, but refuse nothing.
  · obtain ⟨meter, charged⟩ := free.charge c.size
    obtain ⟨meter', charged'⟩ := free'.charge d.size
    rw [charged] at left
    rw [charged'] at right
    obtain ⟨_, ⟨⟩, -⟩ | ⟨_, a, k, ⟨⟩, ha, p, -⟩ := left
    obtain ⟨_, ⟨⟩, -⟩ | ⟨_, b, k', ⟨⟩, hb, p', -⟩ := right
    exact .inr ⟨a, b, k, k', ha, hb, p, p', .inr ⟨free.of_reset p.meter, free'.of_reset p'.meter⟩⟩

/-- The two heaps after an object has been put on each of them. Only a new object that is no string is noted. -/
def withNew (T : Twins) (k k' : Heap) (a b : Address) (kind : Heap.CellKind) : Twins where
  left := k
  right := k'
  stands x y := T.stands x y ∨ x = a ∧ y = b ∧ kind ≠ .text

theorem keeps_withNew (p : T.left.Placed c a k) (p' : T.right.Placed d b k') : T.Keeps (T.withNew k k' a b c.kind) :=
  ⟨.inl, p.cell?_of_some, p'.cell?_of_some⟩

theorem SameGraph.withNew (G : T.SameGraph) (p : T.left.Placed c a k) (p' : T.right.Placed d b k')
    (meters : k.meter = k'.meter ∨ k.meter.Unlimited ∧ k'.meter.Unlimited) (made : c.LikeNew T.value d) :
    (T.withNew k k' a b c.kind).SameGraph where
  cells := by
    have keeps := keeps_withNew p p'
    intro x y stands
    obtain stands | ⟨rfl, rfl, plain⟩ := stands
    · obtain ⟨e, f, he, hf, same⟩ := G.cells stands
      exact ⟨e, f, p.cell?_of_some he, p'.cell?_of_some hf, keeps.cell same⟩
    · exact ⟨c, d, p.cell?_self, p'.cell?_self, keeps.cell (cell_of_likeNew made (.inl plain))⟩
  unique := by
    -- What was there before is not in the new slots.
    have fresh {x y : Address} (stands : T.stands x y) : x ≠ a ∧ y ≠ b := by
      obtain ⟨e, f, he, hf, -⟩ := G.cells stands
      constructor
      · rintro rfl
        cases p.fresh.symm.trans he
      · rintro rfl
        cases p'.fresh.symm.trans hf
    intro x y x' y' first second
    obtain first | ⟨rfl, rfl, -⟩ := first
    · obtain second | ⟨rfl, rfl, -⟩ := second
      · exact G.unique first second
      · exact iff_of_false (fresh first).1 (fresh first).2
    · obtain second | ⟨rfl, rfl, -⟩ := second
      · exact iff_of_false (fresh second).1.symm (fresh second).2.symm
      · exact iff_of_true rfl rfl
  left_total := by
    intro x e found plain
    by_cases new : a = x
    · subst new
      obtain rfl := Option.some.inj (p.cell?_self.symm.trans found)
      exact ⟨b, .inr ⟨rfl, rfl, plain⟩⟩
    · have old : T.left.cell? x = some e := ((p.cell? x).trans (if_neg new)).symm.trans found
      obtain ⟨y, stands⟩ := G.left_total old plain
      exact ⟨y, .inl stands⟩
  right_total := by
    intro y f found plain
    by_cases new : b = y
    · subst new
      obtain rfl := Option.some.inj (p'.cell?_self.symm.trans found)
      have same : T.cell c d := cell_of_likeNew made (.inr plain)
      exact ⟨a, .inr ⟨rfl, rfl, same.like.kind_ne_text.1⟩⟩
    · have old : T.right.cell? y = some f := ((p'.cell? y).trans (if_neg new)).symm.trans found
      obtain ⟨x, stands⟩ := G.right_total old plain
      exact ⟨x, .inl stands⟩
  left_tidy := p.tidy
  right_tidy := p'.tidy
  meters := meters

/-- The two heaps after a change of objects that stand for each other. -/
def edited (T : Twins) (a b : Address) (e f : Edit) : Twins where
  left := T.left.edit a e
  right := T.right.edit b f
  stands := T.stands

theorem SameGraph.keeps_edited (G : T.SameGraph) (stands : T.stands a b) (e f : Edit) : T.Keeps (T.edited a b e f) := by
  obtain ⟨c, d, hc, hd, same⟩ := G.cells stands
  refine ⟨id, fun {x s} string => ?_, fun {y s} string => ?_⟩
  · have other : x ≠ a := by
      rintro rfl
      cases hc.symm.trans string
      exact same.like.kind_ne_text.1 rfl
    exact (Heap.cell?_edit_of_ne e other).trans string
  · have other : y ≠ b := by
      rintro rfl
      cases hd.symm.trans string
      exact same.like.kind_ne_text.2 rfl
    exact (Heap.cell?_edit_of_ne f other).trans string

theorem SameGraph.edited (G : T.SameGraph) (stands : T.stands a b) {e f : Edit} (edits : e.Like T.value f) :
    (T.edited a b e f).SameGraph where
  cells := by
    have keeps := G.keeps_edited stands e f
    intro x y stands'
    obtain ⟨c, d, hc, hd, objects⟩ := G.cells stands'
    have here := G.unique stands' stands
    by_cases changed : x = a
    · obtain rfl := here.1 changed
      subst changed
      exact ⟨_, _, Heap.cell?_edit hc e, Heap.cell?_edit hd f, keeps.cell (objects.edit edits)⟩
    · exact ⟨c, d, (Heap.cell?_edit_of_ne e changed).trans hc,
        (Heap.cell?_edit_of_ne f (mt here.2 changed)).trans hd, keeps.cell objects⟩
  unique := G.unique
  left_total := by
    intro x c found plain
    by_cases changed : x = a
    · exact ⟨b, changed ▸ stands⟩
    · exact G.left_total ((Heap.cell?_edit_of_ne e changed).symm.trans found) plain
  right_total := by
    intro y d found plain
    by_cases changed : y = b
    · exact ⟨a, changed ▸ stands⟩
    · exact G.right_total ((Heap.cell?_edit_of_ne f changed).symm.trans found) plain
  left_tidy := G.left_tidy.update a e.apply
  right_tidy := G.right_tidy.update b f.apply
  meters := G.meters

end changes

/-! ## Running beside each other -/

section runs

variable {T : Twins} {u u' v v' x x' : Value}

theorem runs_inspect {α β : Type} {R : Twins → α → β → Prop} {f : Heap → Attempt α} {g : Heap → Attempt β}
    (agree : T.SameGraph → Agree (R T) (f T.left) (g T.right)) : beside.Runs T R (Heap.inspect f) (Heap.inspect g) := by
  rintro _ _ ⟨rfl, rfl, G⟩
  have agree := agree G
  simp only [Heap.inspect]
  generalize f T.left = r at agree ⊢
  generalize g T.right = q at agree ⊢
  cases agree with
  | ok same => exact .ok (beside.refl T) ⟨rfl, rfl, G⟩ same
  | raised e => exact .raised _ (beside.refl T) ⟨rfl, rfl, G⟩

theorem runs_allocate {c d : Cell} (made : c.LikeNew T.value d) :
    beside.Runs T (fun U a b => U.value (.ref a) (.ref b)) (Heap.allocate c) (Heap.allocate d) := by
  rintro _ _ ⟨rfl, rfl, G⟩
  obtain ⟨e, ha, hb⟩ | ⟨a, b, k, k', ha, hb, p, p', meters⟩ := G.allocate_cases (size_of_likeNew made)
  · rw [ha, hb]
    exact .raised e (beside.refl T) ⟨rfl, rfl, G⟩
  · rw [ha, hb]
    refine .ok (keeps_withNew p p') ⟨rfl, rfl, G.withNew p p' meters made⟩ ?_
    cases made with
    | text s => exact .string (Value.text?_of_cell p.cell?_self) (Value.text?_of_cell p'.cell?_self)
    | list _ => exact .plain (.ref (.inr ⟨rfl, rfl, Heap.CellKind.noConfusion⟩))
    | tuple _ => exact .plain (.ref (.inr ⟨rfl, rfl, Heap.CellKind.noConfusion⟩))

theorem runs_edit {a b : Address} {e f : Edit} (stands : T.stands a b) (edits : e.Like T.value f) :
    beside.Runs T (fun _ _ _ => True) (modify fun h => h.edit a e) (modify fun h => h.edit b f) := by
  rintro _ _ ⟨rfl, rfl, G⟩
  exact .ok (G.keeps_edited stands e f) ⟨rfl, rfl, G.edited stands edits⟩ trivial

theorem runs_setItem (hu : T.value u u') (hv : T.value v v') (hx : T.value x x') :
    beside.Runs T (fun _ _ _ => True) (u.setItem v x) (u'.setItem v' x') := by
  cases hu with
  | string left right =>
    rintro _ _ ⟨rfl, rfl, G⟩
    rw [Value.setItem_of_text left, Value.setItem_of_text right]
    exact .raised _ (beside.refl T) ⟨rfl, rfl, G⟩
  | plain same =>
    cases same with
    | ref stands =>
      refine (runs_inspect (R := fun U e f => e.Like U.value f) fun G => ?_).bind fun U e f keeps edits =>
        runs_edit (keeps.stands stands) edits
      obtain ⟨c, d, hc, hd, same⟩ := G.cells stands
      rw [Heap.read_of_cell? hc, Heap.read_of_cell? hd]
      exact (G.likeness.itemEdit same.like hv hx).imp fun _ _ edits => edits.1
    | _ => exact .raise _

theorem runs_combine (op : Program.Operator) (hu : T.value u u') (hv : T.value v v') :
    beside.Runs T value (u.combine op v) (u'.combine op v') :=
  (runs_inspect (R := fun U => Cell.LikeNew U.value) fun G => G.likeness.combined op hu hv).bind fun _ _ _ _ made =>
    (runs_allocate made).bind fun _ _ _ _ same => .pure same

theorem runs_binary (op : Program.Operator) (hu : T.value u u') (hv : T.value v v') :
    beside.Runs T value (u.binary op v) (u'.binary op v') := by
  have joined := runs_combine op hu hv
  cases hu with
  | string left right =>
    rw [Value.binary_of_text_left left, Value.binary_of_text_left right]
    exact joined
  | plain same =>
    cases hv with
    | string left right =>
      rw [Value.binary_of_text_right left, Value.binary_of_text_right right]
      exact joined
    | plain same' =>
      cases same with
      | int m =>
        cases same' with
        | int n =>
          refine runs_inspect fun _ => ?_
          cases Integer.apply op m n with
          | error cause => exact .raise cause
          | ok n => exact .ok (.plain (.int n))
        | _ => exact joined
      | _ => exact joined

end runs

end Twins

/-- How strings are stored is invisible: on two heaps that hold the same graph of objects, operations on operands that
are the same give results that are the same or raise the same exception, and leave heaps that hold the same graph. -/
theorem string_storage_invisible (T : Twins) (G : T.SameGraph) {u u' v v' x x' : Value} (hu : T.value u u')
    (hv : T.value v v') (hx : T.value x x') :
    Agree Eq (u.truthy T.left) (u'.truthy T.right) ∧
    Agree Eq (u.type T.left) (u'.type T.right) ∧
    Agree Eq (u.key T.left) (u'.key T.right) ∧
    Agree Eq (u.equal T.left v) (u'.equal T.right v') ∧
    Agree Eq (u.compare T.left v) (u'.compare T.right v') ∧
    Agree Eq (u.contains T.left v) (u'.contains T.right v') ∧
    Agree (List.Forall₂ T.value) (u.items T.left) (u'.items T.right) ∧
    Agree T.value (u.item T.left v) (u'.item T.right v') ∧
    Twins.beside.Ends T (fun _ _ _ => True) (u.setItem v x T.left) (u'.setItem v' x' T.right) ∧
    ∀ op, Twins.beside.Ends T Twins.value (u.binary op v T.left) (u'.binary op v' T.right) :=
  have L := G.likeness
  ⟨L.truthy hu, L.type hu, L.key hu, L.equal hu hv, L.compare hu hv, L.contains hu hv, L.items hu, L.item hu hv,
    Twins.runs_setItem hu hv hx ⟨rfl, rfl, G⟩, fun op => Twins.runs_binary op hu hv ⟨rfl, rfl, G⟩⟩

/-- A dictionary under a tuple of a string: on the left the strings stand in the program, on the right they live on the
heap. -/
def Twins.storedApart : Twins where
  left :=
    { slots := #[some (.tuple #[.text "k"]),
        some (.dict (.ofList [(.tuple [.str "k"], .ref ⟨0⟩, .text "v")]) false)]
      meter := .depthOnly none }
  right :=
    { slots := #[some (.text "k"), some (.text "v"), some (.tuple #[.ref ⟨0⟩]),
        some (.dict (.ofList [(.tuple [.str "k"], .ref ⟨2⟩, .ref ⟨1⟩)]) false)]
      meter := .depthOnly none }
  stands a b := a = ⟨0⟩ ∧ b = ⟨2⟩ ∨ a = ⟨1⟩ ∧ b = ⟨3⟩

theorem Twins.sameGraph_storedApart : storedApart.SameGraph where
  cells := by
    have keys : storedApart.value (.text "k") (.ref ⟨0⟩) := .string rfl rfl
    have values : storedApart.value (.text "v") (.ref ⟨1⟩) := .string rfl rfl
    have indices : storedApart.value (.ref ⟨0⟩) (.ref ⟨2⟩) := .plain (.ref (.inl ⟨rfl, rfl⟩))
    rintro _ _ (⟨rfl, rfl⟩ | ⟨rfl, rfl⟩)
    · exact ⟨_, _, rfl, rfl, .tuple (.cons keys .nil)⟩
    · exact ⟨_, _, rfl, rfl, .dict false (.ofList (.cons ⟨rfl, indices, values⟩ .nil))⟩
  unique := by
    rintro _ _ _ _ (⟨rfl, rfl⟩ | ⟨rfl, rfl⟩) (⟨rfl, rfl⟩ | ⟨rfl, rfl⟩)
    all_goals decide
  left_total := by
    rintro ⟨_ | _ | n⟩ c found plain
    · exact ⟨_, .inl ⟨rfl, rfl⟩⟩
    · exact ⟨_, .inr ⟨rfl, rfl⟩⟩
    · cases found
  right_total := by
    rintro ⟨_ | _ | _ | _ | n⟩ d found plain
    · cases found
      exact absurd rfl plain
    · cases found
      exact absurd rfl plain
    · exact ⟨_, .inl ⟨rfl, rfl⟩⟩
    · exact ⟨_, .inr ⟨rfl, rfl⟩⟩
    · cases found
  left_tidy := by
    refine ⟨?_, List.nodup_nil⟩
    rintro ⟨_ | _ | n⟩ <;> exact iff_of_false List.not_mem_nil fun empty => by cases empty
  right_tidy := by
    refine ⟨?_, List.nodup_nil⟩
    rintro ⟨_ | _ | _ | _ | n⟩ <;> exact iff_of_false List.not_mem_nil fun empty => by cases empty
  meters := .inl rfl

theorem string_storage_invisible_tuple_key :
    Twins.storedApart.SameGraph ∧
    Agree Twins.storedApart.value ((Value.ref ⟨1⟩).item Twins.storedApart.left (.ref ⟨0⟩))
      ((Value.ref ⟨3⟩).item Twins.storedApart.right (.ref ⟨2⟩)) ∧
    Twins.beside.Ends Twins.storedApart (fun _ _ _ => True)
      ((Value.ref ⟨1⟩).setItem (.ref ⟨0⟩) (.text "k") Twins.storedApart.left)
      ((Value.ref ⟨3⟩).setItem (.ref ⟨2⟩) (.ref ⟨0⟩) Twins.storedApart.right) := by
  have G := Twins.sameGraph_storedApart
  have dict : Twins.storedApart.value (.ref ⟨1⟩) (.ref ⟨3⟩) := .plain (.ref (.inr ⟨rfl, rfl⟩))
  have index : Twins.storedApart.value (.ref ⟨0⟩) (.ref ⟨2⟩) := .plain (.ref (.inl ⟨rfl, rfl⟩))
  have text : Twins.storedApart.value (.text "k") (.ref ⟨0⟩) := .string rfl rfl
  obtain ⟨-, -, -, -, -, -, -, read, assigned, -⟩ := string_storage_invisible Twins.storedApart G dict index text
  exact ⟨G, read, assigned⟩

end Scriptlet
