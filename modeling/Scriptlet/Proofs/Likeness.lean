import Scriptlet.Proofs.Matching
import Scriptlet.Proofs.Strings

/-!
# Likeness

Which values of two heaps the operations of the language cannot tell apart. In a likeness, related values are strings
with the same text, other values that are the same data, or objects of the same shape whose parts are related. What is
found out about related values is then related too, or it is the same exception.

Where a string is stored does not matter. Only equality asks whether two values are one object, so objects that are no
strings must be related one for one.
-/

namespace Scriptlet

open Heap (Cell Edit)

/-! ## Lists of values -/

section lists

variable {V : Value → Value → Prop} {eq eq' : Value → Value → Attempt Bool}

theorem agree_allEqual
    (heq : ∀ {v w v' w'}, V v v' → V w w' → Agree Eq (eq v w) (eq' v' w'))
    {vs vs' ws ws' : List Value} (hv : List.Forall₂ V vs vs') (hw : List.Forall₂ V ws ws') :
    Agree Eq (Value.allEqual eq vs ws) (Value.allEqual eq' vs' ws') := by
  induction hv generalizing ws ws' with
  | nil => cases hw <;> exact .ok rfl
  | cons h _ ih =>
    cases hw with
    | nil => exact .ok rfl
    | cons h' hw =>
      refine (heq h h').bind fun b _ hb => ?_
      subst hb
      cases b
      · exact .ok rfl
      · exact ih hw

theorem agree_allMatch {κ : Type} {R : κ → Value → Value → Prop}
    (heq : ∀ {v w v' w'}, V v v' → V w w' → Agree Eq (eq v w) (eq' v' w'))
    (hR : ∀ {k v w}, R k v w → V v w) {other other' : κ → Option Value}
    (ho : ∀ k, (other k).Rel V (other' k)) {es fs : List (κ × Value)}
    (he : List.Forall₂ (OrderedMap.EntryMatch R) es fs) :
    Agree Eq (Value.allMatch eq other es) (Value.allMatch eq' other' fs) := by
  induction he with
  | nil => exact .ok rfl
  | @cons e f _ _ he _ ih =>
    obtain ⟨k, v⟩ := e
    obtain ⟨k', v'⟩ := f
    obtain ⟨rfl, hv⟩ := he
    have hk := ho k
    simp only [Value.allMatch]
    generalize other k = o at hk ⊢
    generalize other' k = o' at hk ⊢
    cases hk with
    | none => exact .ok rfl
    | some hw =>
      refine (heq (hR hv) hw).bind fun b _ hb => ?_
      subst hb
      cases b
      · exact .ok rfl
      · exact ih

theorem agree_compareItems {cmp cmp' : Value → Value → Attempt Ordering}
    (hcmp : ∀ {v w v' w'}, V v v' → V w w' → Agree Eq (cmp v w) (cmp' v' w'))
    {vs vs' ws ws' : List Value} (hv : List.Forall₂ V vs vs') (hw : List.Forall₂ V ws ws') :
    Agree Eq (Value.compareItems cmp vs ws) (Value.compareItems cmp' vs' ws') := by
  induction hv generalizing ws ws' with
  | nil => cases hw <;> exact .ok rfl
  | cons h _ ih =>
    cases hw with
    | nil => exact .ok rfl
    | cons h' hw =>
      refine (hcmp h h').bind fun o _ ho => ?_
      subst ho
      cases o
      · exact .ok rfl
      · exact ih hw
      · exact .ok rfl

end lists

/-! ## Related values and objects -/

section relations

variable (V : Value → Value → Prop)

/-- Two objects that are no strings have the same shape and related parts. Nothing is found out about a function but that
it is one. -/
inductive Heap.Cell.Like : Cell → Cell → Prop where
  | list {vs ws : Array Value} (frozen : Bool) (items : List.Forall₂ V vs.toList ws.toList) :
    Like (.list vs frozen) (.list ws frozen)
  | tuple {vs ws : Array Value} (items : List.Forall₂ V vs.toList ws.toList) : Like (.tuple vs) (.tuple ws)
  | dict {es fs : OrderedMap Key (Value × Value)} (frozen : Bool)
      (entries : es.Matches (fun _ e f => V e.1 f.1 ∧ V e.2 f.2) fs) : Like (.dict es frozen) (.dict fs frozen)
  | struct {es fs : OrderedMap String Value} (fields : es.Matches (fun _ => V) fs) : Like (.struct es) (.struct fs)
  | closure (c d : Heap.Closure) : Like (.closure c) (.closure d)
  | method (m n : Heap.BoundMethod) : Like (.method m) (.method n)
  | frame (f g : Heap.Frame) : Like (.frame f) (.frame g)

/-- Two objects that an operator has made have the same shape and related parts. -/
inductive Heap.Cell.LikeNew : Cell → Cell → Prop where
  | text (s : String) : LikeNew (.text s) (.text s)
  | list {vs ws : Array Value} (items : List.Forall₂ V vs.toList ws.toList) : LikeNew (.list vs false) (.list ws false)
  | tuple {vs ws : Array Value} (items : List.Forall₂ V vs.toList ws.toList) : LikeNew (.tuple vs) (.tuple ws)

/-- Two assignments to an item put related values into the same place. -/
inductive Heap.Edit.Like : Edit → Edit → Prop where
  | setItem (i : Nat) {v w : Value} (value : V v w) : Like (.setItem i v) (.setItem i w)
  | setEntry (k : Key) {i j v w : Value} (index : V i j) (value : V v w) : Like (.setEntry k i v) (.setEntry k j w)

/-- Two values that are no strings are the same data, or objects of the same shape with related parts. -/
inductive Value.LikePlain (h h' : Heap) : Value → Value → Prop where
  | none : LikePlain h h' .none .none
  | bool (b : Bool) : LikePlain h h' (.bool b) (.bool b)
  | int (n : Integer) : LikePlain h h' (.int n) (.int n)
  | native (id : NativeId) : LikePlain h h' (.native id) (.native id)
  | ref {a b : Address} {c d : Cell} (left : h.cell? a = some c) (right : h'.cell? b = some d) (parts : c.Like V d) :
    LikePlain h h' (.ref a) (.ref b)

/-- Two values are strings with the same text, or no strings and alike. -/
inductive Value.Like (h h' : Heap) : Value → Value → Prop where
  | string {v w : Value} {s : String} (left : v.text? h = .ok (some s)) (right : w.text? h' = .ok (some s)) :
    Like h h' v w
  | plain {v w : Value} (alike : LikePlain V h h' v w) : Like h h' v w

/-- Related values of two heaps are alike, and those that are no strings are related one for one. -/
structure Likeness (h h' : Heap) : Prop where
  like : ∀ {v w}, V v w → Value.Like V h h' v w
  identity : ∀ {v v' w w'}, V v v' → V w w' → v.text? h = .ok none → w.text? h = .ok none → (v = w ↔ v' = w')

end relations

namespace Heap.Cell.Like

variable {V : Value → Value → Prop} {c d : Cell}

theorem type_eq (alike : c.Like V d) : c.type = d.type := by
  cases alike <;> rfl

theorem kind_ne_text (alike : c.Like V d) : c.kind ≠ .text ∧ d.kind ≠ .text := by
  cases alike <;> exact ⟨Heap.CellKind.noConfusion, Heap.CellKind.noConfusion⟩

end Heap.Cell.Like

theorem size_eq_of_forall₂ {V : Value → Value → Prop} {vs ws : Array Value}
    (items : List.Forall₂ V vs.toList ws.toList) : vs.size = ws.size := by
  simpa using items.length_eq

namespace Likeness

variable {V : Value → Value → Prop} {h h' : Heap} {v v' w w' : Value} {a b : Address}

/-! ## Type, text, truth, items and keys -/

theorem plain_text? (plain : Value.LikePlain V h h' v v') : v.text? h = .ok none ∧ v'.text? h' = .ok none := by
  cases plain with
  | ref left right parts =>
    exact ⟨Value.text?_of_kind_ne left parts.kind_ne_text.1, Value.text?_of_kind_ne right parts.kind_ne_text.2⟩
  | _ => exact ⟨rfl, rfl⟩

theorem text? (L : Likeness V h h') (hv : V v v') : Agree Eq (v.text? h) (v'.text? h') := by
  cases L.like hv with
  | string left right =>
    rw [left, right]
    exact .ok rfl
  | plain alike =>
    rw [(plain_text? alike).1, (plain_text? alike).2]
    exact .ok rfl

/-- If just one of two values is a string, then it is the same one on the other side. -/
theorem oneString {s : String} (left : v.text? h = .ok (some s)) (right : v'.text? h' = .ok (some s))
    (plain : Value.LikePlain V h h' w w') : Value.OneString h v w ∧ Value.OneString h' v' w' :=
  ⟨⟨_, _, left, (plain_text? plain).1, Bool.noConfusion⟩, ⟨_, _, right, (plain_text? plain).2, Bool.noConfusion⟩⟩

/-- Reading objects that are alike. -/
theorem agree_read {c d : Cell} (left : h.cell? a = some c) (right : h'.cell? b = some d) (parts : c.Like V d) :
    Agree (Cell.Like V) (h.read a) (h'.read b) := by
  rw [Heap.read_of_cell? left, Heap.read_of_cell? right]
  exact .ok parts

theorem type (L : Likeness V h h') (hv : V v v') : Agree Eq (v.type h) (v'.type h') := by
  cases L.like hv with
  | string left right =>
    rw [Value.type_of_text left, Value.type_of_text right]
    exact .ok rfl
  | plain alike =>
    cases alike with
    | ref left right parts => exact (agree_read left right parts).bind fun _ _ parts => .pure parts.type_eq
    | _ => exact .ok rfl

/-- Raising an error that names the type of a value. -/
theorem raise_type (L : Likeness V h h') {α β : Type} {R : α → β → Prop} (hv : V v v')
    (cause : ValueType → Fault.Cause) : Agree R (do raise (cause (← v.type h))) (do raise (cause (← v'.type h'))) :=
  (L.type hv).bind fun _ _ same => same ▸ .raise _

/-- Raising an error that names the types of two values. -/
theorem raise_types (L : Likeness V h h') {α β : Type} {R : α → β → Prop} (hv : V v v') (hw : V w w')
    (cause : ValueType → ValueType → Fault.Cause) :
    Agree R (do raise (cause (← v.type h) (← w.type h))) (do raise (cause (← v'.type h') (← w'.type h'))) :=
  (L.type hv).bind fun _ _ same => (L.type hw).bind fun _ _ same' => same ▸ same' ▸ .raise _

theorem truthy (L : Likeness V h h') (hv : V v v') : Agree Eq (v.truthy h) (v'.truthy h') := by
  cases L.like hv with
  | string left right =>
    rw [Value.truthy_of_text left, Value.truthy_of_text right]
    exact .ok rfl
  | plain alike =>
    cases alike with
    | ref left right parts =>
      refine (agree_read left right parts).bind fun _ _ parts => ?_
      cases parts with
      | list _ items => exact .ok (by simp [Array.isEmpty, size_eq_of_forall₂ items])
      | tuple items => exact .ok (by simp [Array.isEmpty, size_eq_of_forall₂ items])
      | dict _ entries => exact .ok (by simp [entries.size_eq])
      | _ => exact .ok rfl
    | _ => exact .ok rfl

theorem items (L : Likeness V h h') (hv : V v v') : Agree (List.Forall₂ V) (v.items h) (v'.items h') := by
  cases L.like hv with
  | string left right =>
    rw [Value.items_of_text left, Value.items_of_text right]
    exact .raise _
  | plain alike =>
    cases alike with
    | ref left right parts =>
      refine (agree_read left right parts).bind fun _ _ parts => ?_
      cases parts with
      | list _ items => exact .ok items
      | tuple items => exact .ok items
      | dict _ entries => exact .ok (List.rel_map (fun _ _ ⟨_, parts⟩ => parts.1) entries.values)
      | _ => exact .raise _
    | _ => exact .raise _

theorem keyWithin (L : Likeness V h h') (n : Nat) (hv : V v v') : Agree Eq (v.keyWithin h n) (v'.keyWithin h' n) := by
  induction n generalizing v v' with
  | zero => exact .raise _
  | succ n ih =>
    cases L.like hv with
    | string left right =>
      rw [Value.keyWithin_of_text left, Value.keyWithin_of_text right]
      exact .ok rfl
    | plain alike =>
      cases alike with
      | ref left right parts =>
        refine (agree_read left right parts).bind fun _ _ parts => ?_
        cases parts with
        | tuple items =>
          refine (Agree.mapM items fun _ _ item => ih item).bind fun ks ks' keys => ?_
          rw [List.forall₂_eq_eq_eq] at keys
          exact .ok (by rw [keys])
        | _ => exact .raise _
      | native _ => exact .raise _
      | _ => exact .ok rfl

theorem key (L : Likeness V h h') (hv : V v v') : Agree Eq (v.key h) (v'.key h') := L.keyWithin _ hv

/-! ## Equality, order and membership -/

theorem equalWithin_plain (L : Likeness V h h') (n : Nat) (hv : V v v') (hw : V w w')
    (first : Value.LikePlain V h h' v v') (second : Value.LikePlain V h h' w w')
    (parts : ∀ {v v' w w' : Value}, V v v' → V w w' → Agree Eq (v.equalWithin h n w) (v'.equalWithin h' n w')) :
    Agree Eq (v.equalWithin h (n + 1) w) (v'.equalWithin h' (n + 1) w') := by
  obtain ⟨hs, hs'⟩ := plain_text? first
  obtain ⟨ht, ht'⟩ := plain_text? second
  -- The shortcut by identity is taken on both sides or on neither.
  have identity := L.identity hv hw hs ht
  simp only [Value.equalWithin]
  by_cases same : v = w
  · rw [if_pos same, if_pos (identity.1 same)]
    exact .ok rfl
  rw [if_neg same, if_neg (mt identity.2 same), hs, hs', ht, ht']
  cases first <;> cases second <;> try exact .ok rfl
  rename_i left right like _ _ _ _ left' right' like'
  refine (agree_read left right like).bind fun _ _ like => ?_
  refine (agree_read left' right' like').bind fun _ _ like' => ?_
  cases like <;> cases like' <;> try exact .ok rfl
  case list.list items _ _ _ items' =>
    simp only [← size_eq_of_forall₂ items, ← size_eq_of_forall₂ items']
    split
    · exact agree_allEqual (V := V) parts items items'
    · exact .ok rfl
  case tuple.tuple items _ _ items' =>
    simp only [← size_eq_of_forall₂ items, ← size_eq_of_forall₂ items']
    split
    · exact agree_allEqual (V := V) parts items items'
    · exact .ok rfl
  case dict.dict entries _ _ _ entries' =>
    simp only [← entries.size_eq, ← entries'.size_eq]
    split
    · refine agree_allMatch (V := V) (R := fun _ => V) parts id (fun k => ?_) ?_
      · have found := entries'.find? k
        generalize OrderedMap.find? _ k = o at found ⊢
        generalize OrderedMap.find? _ k = o' at found ⊢
        cases found with
        | none => exact .none
        | some entry => exact .some entry.2
      · exact List.rel_map (fun _ _ entry => ⟨entry.1, entry.2.2⟩) entries
    · exact .ok rfl
  case struct.struct fields _ _ fields' =>
    simp only [← fields.size_eq, ← fields'.size_eq]
    split
    · exact agree_allMatch (V := V) parts id fields'.find? fields
    · exact .ok rfl

theorem equalWithin (L : Likeness V h h') (n : Nat) (hv : V v v') (hw : V w w') :
    Agree Eq (v.equalWithin h n w) (v'.equalWithin h' n w') := by
  induction n generalizing v v' w w' with
  | zero => exact .raise _
  | succ n ih =>
    cases L.like hv with
    | string left right =>
      cases L.like hw with
      | string left' right' =>
        -- Strings that are one object here may be two there; either way their texts decide.
        rw [Value.equalWithin_of_texts left left', Value.equalWithin_of_texts right right']
        exact .ok rfl
      | plain alike =>
        obtain ⟨one, one'⟩ := oneString left right alike
        rw [one.equalWithin, one'.equalWithin]
        exact .ok rfl
    | plain alike =>
      cases L.like hw with
      | string left' right' =>
        obtain ⟨one, one'⟩ := oneString left' right' alike
        rw [one.symm.equalWithin, one'.symm.equalWithin]
        exact .ok rfl
      | plain alike' => exact L.equalWithin_plain n hv hw alike alike' ih

theorem equal (L : Likeness V h h') (hv : V v v') (hw : V w w') : Agree Eq (v.equal h w) (v'.equal h' w') :=
  L.equalWithin _ hv hw

theorem compareContents_plain (L : Likeness V h h') {cmp cmp' : Value → Value → Attempt Ordering}
    (parts : ∀ {v v' w w' : Value}, V v v' → V w w' → Agree Eq (cmp v w) (cmp' v' w')) (hv : V v v') (hw : V w w')
    (first : Value.LikePlain V h h' v v') (second : Value.LikePlain V h h' w w') :
    Agree Eq (v.compareContents h cmp w) (v'.compareContents h' cmp' w') := by
  have types := L.raise_types (R := @Eq Ordering) hv hw .notComparable
  unfold Value.compareContents
  rw [(plain_text? first).1, (plain_text? first).2, (plain_text? second).1, (plain_text? second).2]
  cases first with
  | ref left right like =>
    cases second with
    | ref left' right' like' =>
      refine (agree_read left right like).bind fun _ _ like => ?_
      refine (agree_read left' right' like').bind fun _ _ like' => ?_
      cases like <;> cases like' <;> try exact .raise _
      case list.list items _ _ _ items' => exact agree_compareItems (V := V) parts items items'
      case tuple.tuple items _ _ items' => exact agree_compareItems (V := V) parts items items'
    | _ => exact types
  | _ => exact types

theorem compareWithin (L : Likeness V h h') (n : Nat) (hv : V v v') (hw : V w w') :
    Agree Eq (v.compareWithin h n w) (v'.compareWithin h' n w') := by
  induction n generalizing v v' w w' with
  | zero => exact .raise _
  | succ n ih =>
    have types := L.raise_types (R := @Eq Ordering) hv hw .notComparable
    cases L.like hv with
    | string left right =>
      cases L.like hw with
      | string left' right' =>
        rw [Value.compareWithin_of_texts left left', Value.compareWithin_of_texts right right']
        exact .ok rfl
      | plain alike =>
        obtain ⟨one, one'⟩ := oneString left right alike
        rw [one.compareWithin, one'.compareWithin]
        exact types
    | plain alike =>
      cases L.like hw with
      | string left' right' =>
        obtain ⟨one, one'⟩ := oneString left' right' alike
        rw [one.symm.compareWithin, one'.symm.compareWithin]
        exact types
      | plain alike' =>
        have contents := L.compareContents_plain (fun hv hw => ih hv hw) hv hw alike alike'
        cases alike <;> cases alike' <;> first | exact contents | exact .ok rfl

theorem compare (L : Likeness V h h') (hv : V v v') (hw : V w w') : Agree Eq (v.compare h w) (v'.compare h' w') :=
  L.compareWithin _ hv hw

theorem anyEqual (L : Likeness V h h') (hv : V v v') {ws ws' : List Value} (hw : List.Forall₂ V ws ws') :
    Agree Eq (v.anyEqual h ws) (v'.anyEqual h' ws') := by
  induction hw with
  | nil => exact .ok rfl
  | cons hw _ ih =>
    refine (L.equal hw hv).bind fun b _ same => ?_
    subst same
    cases b with
    | false => exact ih
    | true => exact .ok rfl

theorem contains (L : Likeness V h h') (hv : V v v') (hw : V w w') : Agree Eq (v.contains h w) (v'.contains h' w') := by
  unfold Value.contains
  cases L.like hv with
  | string left right =>
    rw [left, right]
    refine (L.text? hw).bind fun t _ same => ?_
    subst same
    cases t with
    | some needle => exact .ok rfl
    | none => exact L.raise_type hw _
  | plain alike =>
    rw [(plain_text? alike).1, (plain_text? alike).2]
    cases alike with
    | ref left right parts =>
      refine (agree_read left right parts).bind fun _ _ parts => ?_
      cases parts with
      | list _ items => exact L.anyEqual hw items
      | tuple items => exact L.anyEqual hw items
      | dict _ entries => exact (L.key hw).bind fun k _ same => .ok (same ▸ entries.contains_eq k)
      | _ => exact .raise _
    | _ => exact .raise _

/-! ## Items -/

theorem asIndex (L : Likeness V h h') (hv : V v v') : Agree Eq (v.asIndex h) (v'.asIndex h') := by
  have type := L.raise_type (R := @Eq Integer) hv .indexNotInteger
  cases L.like hv with
  | string left right =>
    rw [Value.asIndex_of_text left, Value.asIndex_of_text right]
    exact .raise _
  | plain alike =>
    cases alike with
    | int n => exact .ok rfl
    | _ => exact type

/-- The position that an index means only depends on the length. -/
theorem position?_cases {m n : Nat} (same : m = n) (index : Integer) :
    (Value.position? index m = none ∧ Value.position? index n = none) ∨
    ∃ i j, Value.position? index m = some i ∧ Value.position? index n = some j ∧ i.val = j.val := by
  subst same
  cases Value.position? index m with
  | none => exact .inl ⟨rfl, rfl⟩
  | some i => exact .inr ⟨i, i, rfl, rfl, rfl⟩

theorem itemAt {vs ws : Array Value} (items : List.Forall₂ V vs.toList ws.toList) (type : ValueType) (index : Integer) :
    Agree V (Value.itemAt type vs index) (Value.itemAt type ws index) := by
  have sizes := size_eq_of_forall₂ items
  unfold Value.itemAt
  rcases position?_cases sizes index with ⟨hp, hq⟩ | ⟨i, j, hp, hq, same⟩
  · simp only [hp, hq, sizes]
    exact .raise _
  · simp only [hp, hq]
    obtain ⟨j, inside⟩ := j
    cases same
    exact .ok (items.get i.isLt inside)

theorem item (L : Likeness V h h') (hv : V v v') (hw : V w w') : Agree V (v.item h w) (v'.item h' w') := by
  cases L.like hv with
  | string left right =>
    rw [Value.item_of_text left, Value.item_of_text right]
    exact .raise _
  | plain alike =>
    cases alike with
    | ref left right parts =>
      refine (agree_read left right parts).bind fun _ _ parts => ?_
      cases parts with
      | list _ items => exact (L.asIndex hw).bind fun _ _ same => same ▸ itemAt items _ _
      | tuple items => exact (L.asIndex hw).bind fun _ _ same => same ▸ itemAt items _ _
      | dict _ entries =>
        refine (L.key hw).bind fun k _ same => ?_
        subst same
        have found := entries.find? k
        generalize OrderedMap.find? _ k = o at found ⊢
        generalize OrderedMap.find? _ k = o' at found ⊢
        cases found with
        | none => exact .raise _
        | some entry => exact .ok entry.2
      | _ => exact .raise _
    | _ => exact .raise _

/-- An assignment to an item changes objects that are alike in the same way, and only if they can change. -/
theorem itemEdit (L : Likeness V h h') {c d : Cell} (parts : c.Like V d) (hv : V v v') (hw : V w w') :
    Agree (fun e f => e.Like V f ∧ c.Mutable) (Value.itemEdit h c v w) (Value.itemEdit h' d v' w') := by
  cases parts with
  | list frozen items =>
    refine (L.asIndex hv).bind fun n _ same => ?_
    subst same
    have sizes := size_eq_of_forall₂ items
    rcases position?_cases sizes n with ⟨hp, hq⟩ | ⟨i, j, hp, hq, same⟩
    · simp only [hp, hq, sizes]
      exact .raise _
    · simp only [hp, hq, ← same]
      cases frozen with
      | false => exact .ok ⟨.setItem _ hw, .list _⟩
      | true => exact .raise _
  | dict frozen entries =>
    refine (L.key hv).bind fun k _ same => ?_
    subst same
    cases frozen with
    | false => exact .ok ⟨.setEntry k hv hw, .dict _⟩
    | true => exact .raise _
  | _ => exact .raise _

/-! ## Joining -/

theorem joined_plain (first : Value.LikePlain V h h' v v') (second : Value.LikePlain V h h' w w') :
    Agree (Option.Rel (Cell.LikeNew V)) (v.joined h w) (v'.joined h' w') := by
  have append {vs ws vs' ws' : Array Value} (items : List.Forall₂ V vs.toList ws.toList)
      (items' : List.Forall₂ V vs'.toList ws'.toList) : List.Forall₂ V (vs ++ vs').toList (ws ++ ws').toList := by
    rw [Array.toList_append, Array.toList_append]
    exact List.rel_append items items'
  unfold Value.joined
  rw [(plain_text? first).1, (plain_text? first).2, (plain_text? second).1, (plain_text? second).2]
  cases first with
  | ref left right like =>
    cases second with
    | ref left' right' like' =>
      refine (agree_read left right like).bind fun _ _ like => ?_
      refine (agree_read left' right' like').bind fun _ _ like' => ?_
      cases like <;> cases like' <;> try exact .ok .none
      case list.list items _ _ _ items' => exact .ok (.some (.list (append items items')))
      case tuple.tuple items _ _ items' => exact .ok (.some (.tuple (append items items')))
    | _ => exact .ok .none
  | _ => exact .ok .none

theorem joined (L : Likeness V h h') (hv : V v v') (hw : V w w') :
    Agree (Option.Rel (Cell.LikeNew V)) (v.joined h w) (v'.joined h' w') := by
  cases L.like hv with
  | string left right =>
    cases L.like hw with
    | string left' right' =>
      rw [Value.joined_of_texts left left', Value.joined_of_texts right right']
      exact .ok (.some (.text _))
    | plain alike =>
      obtain ⟨one, one'⟩ := oneString left right alike
      rw [one.joined, one'.joined]
      exact .ok .none
  | plain alike =>
    cases L.like hw with
    | string left' right' =>
      obtain ⟨one, one'⟩ := oneString left' right' alike
      rw [one.symm.joined, one'.symm.joined]
      exact .ok .none
    | plain alike' => exact joined_plain alike alike'

theorem combined (L : Likeness V h h') (op : Program.Operator) (hv : V v v') (hw : V w w') :
    Agree (Cell.LikeNew V) (v.combined h op w) (v'.combined h' op w') := by
  have types := L.raise_types (R := Cell.LikeNew V) hv hw (.unsupportedOperands op)
  unfold Value.combined
  split
  · refine (L.joined hv hw).bind fun _ _ made => ?_
    cases made with
    | some made => exact .ok made
    | none => exact types
  · exact types

end Likeness

end Scriptlet
