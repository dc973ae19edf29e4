import Scriptlet.Proofs.Content.Basic
import Scriptlet.Value.Ordering

/-!
# Order is consistent

Comparing two values either fails, for their types or for their nesting, or says how they are ordered. What it says is
an order as far as it says anything: turned around it is reversed, it is equality where equality in the language is,
and it goes on through a value in the middle. Lists and tuples are ordered by their first items that differ, and what
is reached by comparing the outer two of three values was reached with the one in the middle. So the nesting that
stops a comparison is never met.
-/

namespace Scriptlet

/-- Going on through the middle, where nothing goes down. -/
theorem compare_eq_then {α : Type} [Ord α] [Std.TransOrd α] {a b c : α} (first : compare a b ≠ .gt)
    (second : compare b c ≠ .gt) : compare a c = (compare a b).then (compare b c) := by
  cases hab : compare a b with
  | gt => exact absurd hab first
  | eq => exact Std.TransCmp.congr_left hab
  | lt =>
    show compare a c = .lt
    cases hbc : compare b c with
    | gt => exact absurd hbc second
    | eq => exact Std.TransCmp.lt_of_lt_of_eq hab hbc
    | lt => exact Std.TransCmp.lt_trans hab hbc

theorem isEq_compare {α : Type} [Ord α] [Std.LawfulEqOrd α] [DecidableEq α] (a b : α) :
    (compare a b).isEq = decide (a = b) := by
  rw [Bool.eq_iff_iff, Ordering.isEq_iff_eq_eq, decide_eq_true_iff]
  exact Std.compare_eq_iff_eq

theorem eq_lt_of_ne {o : Ordering} (notGreater : o ≠ .gt) (notEqual : o ≠ .eq) : o = .lt := by
  cases o with
  | lt => rfl
  | eq => exact absurd rfl notEqual
  | gt => exact absurd rfl notGreater

namespace Value

/-! ## One level of a comparison -/

/-- How lists are ordered, where `R` says how their items are. -/
inductive ItemsCompare (R : Value → Value → Ordering → Prop) : List Value → List Value → Ordering → Prop where
  | nil : ItemsCompare R [] [] .eq
  | shorter {w : Value} {ws : List Value} : ItemsCompare R [] (w :: ws) .lt
  | longer {v : Value} {vs : List Value} : ItemsCompare R (v :: vs) [] .gt
  | differ {v w : Value} {vs ws : List Value} {o : Ordering} (first : R v w o) (ne : o ≠ .eq) :
      ItemsCompare R (v :: vs) (w :: ws) o
  | same {v w : Value} {vs ws : List Value} {o : Ordering} (first : R v w .eq) (rest : ItemsCompare R vs ws o) :
      ItemsCompare R (v :: vs) (w :: ws) o

/-- How two values are ordered, where `R` says how the items of lists and tuples are. -/
inductive Compares (h : Heap) (R : Value → Value → Ordering → Prop) : Value → Value → Ordering → Prop where
  | int (m n : Integer) : Compares h R (.int m) (.int n) (Ord.compare m.toInt n.toInt)
  | bool (a b : Bool) : Compares h R (.bool a) (.bool b) (Ord.compare a b)
  | text {v w : Value} {s t : String} (hv : v.text? h = .ok (some s)) (hw : w.text? h = .ok (some t)) :
      Compares h R v w (Ord.compare s t)
  | list {a b : Address} {vs ws : Array Value} {frozen frozen' : Bool} {o : Ordering}
      (ha : h.cell? a = some (.list vs frozen)) (hb : h.cell? b = some (.list ws frozen'))
      (items : ItemsCompare R vs.toList ws.toList o) : Compares h R (.ref a) (.ref b) o
  | tuple {a b : Address} {vs ws : Array Value} {o : Ordering} (ha : h.cell? a = some (.tuple vs))
      (hb : h.cell? b = some (.tuple ws)) (items : ItemsCompare R vs.toList ws.toList o) :
      Compares h R (.ref a) (.ref b) o

section

variable {h : Heap} {R : Value → Value → Ordering → Prop} {cmp : Value → Value → Attempt Ordering} {u v w : Value}
  {us vs ws : List Value} {o o' : Ordering} {n : Nat}

theorem compareItems_eq_ok_iff :
    compareItems cmp vs ws = .ok o ↔ ItemsCompare (fun v w o => cmp v w = .ok o) vs ws o := by
  induction vs generalizing ws with
  | nil =>
    cases ws with
    | nil => exact ⟨fun ran => Except.ok.inj ran ▸ .nil, fun items => by cases items; rfl⟩
    | cons w ws => exact ⟨fun ran => Except.ok.inj ran ▸ .shorter, fun items => by cases items; rfl⟩
  | cons v vs ih =>
    cases ws with
    | nil => exact ⟨fun ran => Except.ok.inj ran ▸ .longer, fun items => by cases items; rfl⟩
    | cons w ws =>
      rw [compareItems, Attempt.bind_eq_ok]
      constructor
      · rintro ⟨o₁, first, ran⟩
        cases o₁ with
        | eq => exact .same first (ih.1 ran)
        | lt =>
          cases ran
          exact .differ first Ordering.noConfusion
        | gt =>
          cases ran
          exact .differ first Ordering.noConfusion
      · intro items
        cases items with
        | differ first ne =>
          refine ⟨o, first, ?_⟩
          cases o with
          | eq => exact absurd rfl ne
          | lt => rfl
          | gt => rfl
        | same first rest => exact ⟨.eq, first, ih.2 rest⟩

theorem text?_list {a : Address} {vs : Array Value} {frozen : Bool} (ha : h.cell? a = some (.list vs frozen)) :
    (ref a).text? h = .ok Option.none := text?_of_container ha rfl

theorem text?_tuple {a : Address} {vs : Array Value} (ha : h.cell? a = some (.tuple vs)) :
    (ref a).text? h = .ok Option.none := text?_of_container ha rfl

theorem compares_of_compareContents (ran : compareContents h cmp v w = .ok o) :
    Compares h (fun v w o => cmp v w = .ok o) v w o := by
  unfold compareContents at ran
  obtain ⟨s, hs, ran⟩ := Attempt.bind_eq_ok.1 ran
  obtain ⟨t, ht, ran⟩ := Attempt.bind_eq_ok.1 ran
  split at ran
  · cases ran
    exact .text hs ht
  · split at ran
    · obtain ⟨c, hc, ran⟩ := Attempt.bind_eq_ok.1 ran
      obtain ⟨d, hd, ran⟩ := Attempt.bind_eq_ok.1 ran
      split at ran
      · exact .list (Heap.cell?_of_read hc) (Heap.cell?_of_read hd) (compareItems_eq_ok_iff.1 ran)
      · exact .tuple (Heap.cell?_of_read hc) (Heap.cell?_of_read hd) (compareItems_eq_ok_iff.1 ran)
      · cases ran
    · obtain ⟨_, -, ran⟩ := Attempt.bind_eq_ok.1 ran
      obtain ⟨_, -, ran⟩ := Attempt.bind_eq_ok.1 ran
      cases ran

theorem compareContents_of_text {s t : String} (hv : v.text? h = .ok (some s)) (hw : w.text? h = .ok (some t)) :
    compareContents h cmp v w = .ok (Ord.compare s t) := by
  unfold compareContents
  rw [hv, hw]
  rfl

theorem compareContents_of_lists {a b : Address} {vs ws : Array Value} {frozen frozen' : Bool}
    (ha : h.cell? a = some (.list vs frozen)) (hb : h.cell? b = some (.list ws frozen')) :
    compareContents h cmp (.ref a) (.ref b) = compareItems cmp vs.toList ws.toList := by
  rw [compareContents, text?_list ha, text?_list hb, Heap.read_of_cell? ha, Heap.read_of_cell? hb]
  rfl

theorem compareContents_of_tuples {a b : Address} {vs ws : Array Value} (ha : h.cell? a = some (.tuple vs))
    (hb : h.cell? b = some (.tuple ws)) :
    compareContents h cmp (.ref a) (.ref b) = compareItems cmp vs.toList ws.toList := by
  rw [compareContents, text?_tuple ha, text?_tuple hb, Heap.read_of_cell? ha, Heap.read_of_cell? hb]
  rfl

theorem compareWithin_eq_contents (ints : ∀ k, v ≠ .int k) (bools : ∀ b, v ≠ .bool b) :
    compareWithin h (n + 1) v w = compareContents h (compareWithin h n) v w := by
  cases v with
  | int k => exact absurd rfl (ints k)
  | bool b => exact absurd rfl (bools b)
  | _ => rfl

theorem compareWithin_succ_eq_ok_iff :
    compareWithin h (n + 1) v w = .ok o ↔ Compares h (fun v w o => compareWithin h n v w = .ok o) v w o := by
  constructor
  · intro ran
    cases v with
    | int k =>
      cases w with
      | int m =>
        cases ran
        exact .int k m
      | _ => exact compares_of_compareContents ran
    | bool a =>
      cases w with
      | bool b =>
        cases ran
        exact .bool a b
      | _ => exact compares_of_compareContents ran
    | _ => exact compares_of_compareContents ran
  · intro compares
    cases compares with
    | int k m => rfl
    | bool a b => rfl
    | text hv hw =>
      rw [compareWithin_eq_contents, compareContents_of_text hv hw]
      · rintro k rfl
        cases hv
      · rintro b rfl
        cases hv
    | list ha hb items => exact (compareContents_of_lists ha hb).trans (compareItems_eq_ok_iff.2 items)
    | tuple ha hb items => exact (compareContents_of_tuples ha hb).trans (compareItems_eq_ok_iff.2 items)

/-! ## Turned around -/

theorem ItemsCompare.swap (hR : ∀ v w o, R v w o → R w v o.swap) (items : ItemsCompare R vs ws o) :
    ItemsCompare R ws vs o.swap := by
  induction items with
  | nil => exact .nil
  | shorter => exact .longer
  | longer => exact .shorter
  | differ first ne => exact .differ (hR _ _ _ first) fun eq => ne (Ordering.swap_eq_eq.1 eq)
  | same first _ ih => exact .same (hR _ _ _ first) ih

theorem Compares.swap (hR : ∀ v w o, R v w o → R w v o.swap) (compares : Compares h R v w o) :
    Compares h R w v o.swap := by
  cases compares with
  | int m k =>
    rw [← Std.OrientedOrd.eq_swap]
    exact .int k m
  | bool a b =>
    rw [← Std.OrientedOrd.eq_swap]
    exact .bool b a
  | text hv hw =>
    rw [← Std.OrientedOrd.eq_swap]
    exact .text hw hv
  | list ha hb items => exact .list hb ha (items.swap hR)
  | tuple ha hb items => exact .tuple hb ha (items.swap hR)

theorem compareWithin_swap (ran : compareWithin h n v w = .ok o) : compareWithin h n w v = .ok o.swap := by
  induction n generalizing v w o with
  | zero => cases ran
  | succ n ih => exact compareWithin_succ_eq_ok_iff.2 ((compareWithin_succ_eq_ok_iff.1 ran).swap fun _ _ _ => ih)

/-- A value that can be compared with itself is not less than itself. -/
theorem compareWithin_self (ran : compareWithin h n v v = .ok o) : o = .eq := by
  have turned : o.swap = o := Except.ok.inj ((compareWithin_swap ran).symm.trans ran)
  cases o with
  | eq => rfl
  | lt => cases turned
  | gt => cases turned

/-! ## Equality -/

theorem ItemsCompare.allEqual {eq : Value → Value → Attempt Bool} (items : ItemsCompare R vs ws o)
    (hR : ∀ v w o, R v w o → eq v w = .ok o.isEq) : Value.allEqual eq vs ws = .ok o.isEq := by
  induction items with
  | nil => rfl
  | shorter => rfl
  | longer => rfl
  | @differ v w vs ws o first ne =>
    have unequal : o.isEq = false := by
      cases o with
      | eq => exact absurd rfl ne
      | lt => rfl
      | gt => rfl
    rw [Value.allEqual, hR v w o first, unequal]
    rfl
  | @same v w vs ws o first _ ih =>
    rw [Value.allEqual, hR v w .eq first]
    exact ih

theorem ItemsCompare.length_eq (items : ItemsCompare R vs ws o) (equal : o = .eq) : vs.length = ws.length := by
  induction items with
  | nil => rfl
  | shorter => cases equal
  | longer => cases equal
  | differ first ne => exact absurd equal ne
  | same _ _ ih => rw [List.length_cons, List.length_cons, ih equal]

/-- Comparing the lengths first does not change what the comparison of the items says. -/
theorem ItemsCompare.equalItems {eq : Value → Value → Attempt Bool} {vs ws : Array Value}
    (items : ItemsCompare R vs.toList ws.toList o) (hR : ∀ v w o, R v w o → eq v w = .ok o.isEq) :
    (if vs.size = ws.size then Value.allEqual eq vs.toList ws.toList else return false) = .ok o.isEq := by
  by_cases sizes : vs.size = ws.size
  · rw [if_pos sizes]
    exact items.allEqual hR
  · rw [if_neg sizes]
    cases o with
    | eq => exact absurd (items.length_eq rfl) sizes
    | lt => rfl
    | gt => rfl

theorem equalWithin_of_compareWithin (ran : compareWithin h n v w = .ok o) : equalWithin h n v w = .ok o.isEq := by
  induction n generalizing v w o with
  | zero => cases ran
  | succ n ih =>
    unfold equalWithin
    by_cases same : v = w
    · subst same
      rw [compareWithin_self ran, if_pos rfl]
      rfl
    rw [if_neg same]
    cases compareWithin_succ_eq_ok_iff.1 ran with
    | int m k =>
      rw [isEq_compare, decide_eq_false fun ints => same (congrArg int (Int64.toInt_inj.1 ints))]
      rfl
    | bool a b =>
      rw [isEq_compare, decide_eq_false fun bools => same (congrArg bool bools)]
      rfl
    | text hv hw =>
      rw [hv, hw, isEq_compare]
      rfl
    | list ha hb items =>
      simp only [text?_list ha, text?_list hb, Heap.read_of_cell? ha, Heap.read_of_cell? hb]
      exact items.equalItems fun _ _ _ => ih
    | tuple ha hb items =>
      simp only [text?_tuple ha, text?_tuple hb, Heap.read_of_cell? ha, Heap.read_of_cell? hb]
      exact items.equalItems fun _ _ _ => ih

/-! ## Through the middle -/

theorem ItemsCompare.trans
    (hR : ∀ u v w o o', R u v o → R v w o' → o ≠ .gt → o' ≠ .gt → R u w (o.then o'))
    (first : ItemsCompare R us vs o) (second : ItemsCompare R vs ws o') (ho : o ≠ .gt) (ho' : o' ≠ .gt) :
    ItemsCompare R us ws (o.then o') := by
  induction first generalizing ws o' with
  | nil => exact second
  | shorter =>
    cases second with
    | longer => exact absurd rfl ho'
    | differ _ _ => exact .shorter
    | same _ _ => exact .shorter
  | longer => exact absurd rfl ho
  | @differ u v us vs o huv ne =>
    obtain rfl : o = .lt := eq_lt_of_ne ho ne
    cases second with
    | longer => exact absurd rfl ho'
    | differ hvw _ => exact .differ (hR _ _ _ _ _ huv hvw ho ho') ne
    | same hvw _ => exact .differ (hR u v _ .lt .eq huv hvw ho Ordering.noConfusion) ne
  | @same u v us vs o huv rest ih =>
    cases second with
    | longer => exact absurd rfl ho'
    | differ hvw ne' =>
      obtain rfl : o' = .lt := eq_lt_of_ne ho' ne'
      have less : o.then .lt = .lt := by
        cases o with
        | gt => exact absurd rfl ho
        | lt => rfl
        | eq => rfl
      rw [less]
      exact .differ (hR _ _ _ _ _ huv hvw Ordering.noConfusion ho') ne'
    | same hvw rest' => exact .same (hR _ _ _ _ _ huv hvw Ordering.noConfusion Ordering.noConfusion) (ih rest' ho ho')

theorem Compares.trans
    (hR : ∀ u v w o o', R u v o → R v w o' → o ≠ .gt → o' ≠ .gt → R u w (o.then o'))
    (first : Compares h R u v o) (second : Compares h R v w o') (ho : o ≠ .gt) (ho' : o' ≠ .gt) :
    Compares h R u w (o.then o') := by
  cases first with
  | int k m =>
    cases second with
    | int _ n =>
      rw [← compare_eq_then ho ho']
      exact .int k n
    | text hv hw => cases hv
  | bool a b =>
    cases second with
    | bool _ c =>
      rw [← compare_eq_then ho ho']
      exact .bool a c
    | text hv hw => cases hv
  | text hu hv =>
    cases second with
    | int => cases hv
    | bool => cases hv
    | text hv' hw =>
      cases hv.symm.trans hv'
      rw [← compare_eq_then ho ho']
      exact .text hu hw
    | list ha _ _ => cases hv.symm.trans (text?_list ha)
    | tuple ha _ _ => cases hv.symm.trans (text?_tuple ha)
  | list ha hb items =>
    cases second with
    | text hv _ => cases hv.symm.trans (text?_list hb)
    | list hb' hc items' =>
      cases hb.symm.trans hb'
      exact .list ha hc (items.trans hR items' ho ho')
    | tuple hb' _ _ => cases hb.symm.trans hb'
  | tuple ha hb items =>
    cases second with
    | text hv _ => cases hv.symm.trans (text?_tuple hb)
    | list hb' _ _ => cases hb.symm.trans hb'
    | tuple hb' hc items' =>
      cases hb.symm.trans hb'
      exact .tuple ha hc (items.trans hR items' ho ho')

theorem compareWithin_trans (first : compareWithin h n u v = .ok o) (second : compareWithin h n v w = .ok o')
    (ho : o ≠ .gt) (ho' : o' ≠ .gt) : compareWithin h n u w = .ok (o.then o') := by
  induction n generalizing u v w o o' with
  | zero => cases first
  | succ n ih =>
    rw [compareWithin_succ_eq_ok_iff] at first second ⊢
    exact first.trans (fun _ _ _ _ _ => ih) second ho ho'

end

end Value

/-- On every heap, whether it has cycles or not, and for all values: if two of them can be compared, then also the other
way round, with the opposite result, and they are equal in the language exactly if neither is less. And if three
values are in ascending order, the first can be compared with the third and is less if there is a step. -/
theorem order_consistent (h : Heap) (u v w : Value) :
    (∀ o, u.compare h v = .ok o → v.compare h u = .ok o.swap ∧ u.equal h v = .ok o.isEq) ∧
    ∀ o o', u.compare h v = .ok o → v.compare h w = .ok o' → o ≠ .gt → o' ≠ .gt →
      u.compare h w = .ok (if o = .lt ∨ o' = .lt then .lt else .eq) := by
  refine ⟨fun o ran => ⟨Value.compareWithin_swap ran, Value.equalWithin_of_compareWithin ran⟩, ?_⟩
  intro o o' first second ho ho'
  have outer : u.compare h w = .ok (o.then o') := Value.compareWithin_trans first second ho ho'
  have step : o.then o' = if o = .lt ∨ o' = .lt then .lt else .eq := by
    cases o with
    | gt => exact absurd rfl ho
    | lt => rfl
    | eq =>
      cases o' with
      | gt => exact absurd rfl ho'
      | lt => rfl
      | eq => rfl
  rw [outer, step]

/-- Three lists that hold themselves, the first two with a string that is stored in two ways. -/
theorem order_consistent_cyclic :
    let h : Heap := {
      slots := #[some (.list #[.text "a", .int 1, .ref ⟨0⟩] false), some (.list #[.ref ⟨3⟩, .int 2, .ref ⟨1⟩] true),
        some (.list #[.text "b", .ref ⟨2⟩] false), some (.text "a")]
      meter := .depthOnly none }
    (Value.ref ⟨0⟩).compare h (.ref ⟨1⟩) = .ok .lt ∧ (Value.ref ⟨1⟩).compare h (.ref ⟨2⟩) = .ok .lt ∧
    (Value.ref ⟨1⟩).compare h (.ref ⟨0⟩) = .ok .gt ∧ (Value.ref ⟨0⟩).equal h (.ref ⟨1⟩) = .ok false ∧
    (Value.ref ⟨0⟩).compare h (.ref ⟨2⟩) = .ok .lt := by
  intro h
  have first : (Value.ref ⟨0⟩).compare h (.ref ⟨1⟩) = .ok .lt := by decide +kernel
  have second : (Value.ref ⟨1⟩).compare h (.ref ⟨2⟩) = .ok .lt := by decide +kernel
  obtain ⟨both, through⟩ := order_consistent h (.ref ⟨0⟩) (.ref ⟨1⟩) (.ref ⟨2⟩)
  obtain ⟨turned, equality⟩ := both .lt first
  exact ⟨first, second, turned, equality, through .lt .lt first second Ordering.noConfusion Ordering.noConfusion⟩

end Scriptlet
