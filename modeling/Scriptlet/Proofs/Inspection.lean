import Scriptlet.Machine.Activation
import Scriptlet.Machine.Call
import Scriptlet.Proofs.Likeness
import Scriptlet.Proofs.Object.Paths

/-!
# Looking at matching values

All that programs and host functions can find out about a value is the same for matching values of matching
heaps: its type, text, truth, items, key, order, equality, attributes and object. What is found is never a
broken table.
-/

namespace Scriptlet

open Budget (maxDataDepth)
open Heap (Cell)

namespace Matching

variable {M : Matching}

/-- The indices of the entries of matching dictionaries match, and so do their values. -/
theorem entries_values {es fs : OrderedMap Key (Value × Value)} (h : es.Matches M.entry fs) :
    List.Forall₂ (fun e f => M.value e.1 f.1 ∧ M.value e.2 f.2) es.values fs.values :=
  h.values.imp fun _ _ ⟨_, he⟩ => he

end Matching

namespace Alike

variable {M : Matching} {h h' : Heap} {v v' w w' : Value}

/-! ## What related values have in common -/

/-- Matching values are alike, so operations on values cannot tell them apart. -/
theorem likeness (A : Alike M h h') : Likeness M.value h h' where
  like hv := by
    cases hv with
    | text _ => exact .string rfl rfl
    | ref hab =>
      obtain ⟨c, d, hc, hd, hcd⟩ := A.object hab
      cases hcd with
      | text s => exact .string (Value.text?_of_cell hc) (Value.text?_of_cell hd)
      | list frozen hi => exact .plain (.ref hc hd (.list frozen hi))
      | tuple hi => exact .plain (.ref hc hd (.tuple hi))
      | dict frozen he => exact .plain (.ref hc hd (.dict frozen he))
      | struct he => exact .plain (.ref hc hd (.struct (he.imp fun _ _ _ binding => binding.2)))
      | closure _ _ _ => exact .plain (.ref hc hd (.closure _ _))
      | method _ _ => exact .plain (.ref hc hd (.method _ _))
    | _ => exact .plain (by constructor)
  identity hv hw _ _ := A.value_unique hv hw

theorem type (A : Alike M h h') (hv : M.value v v') : Agree Eq (v.type h) (v'.type h') := A.likeness.type hv

theorem text? (A : Alike M h h') (hv : M.value v v') : Agree Eq (v.text? h) (v'.text? h') := A.likeness.text? hv

theorem truthy (A : Alike M h h') (hv : M.value v v') : Agree Eq (v.truthy h) (v'.truthy h') := A.likeness.truthy hv

/-- Raising an error that names the type of a value. -/
theorem raise_type (A : Alike M h h') {α β : Type} {R : α → β → Prop} (hv : M.value v v')
    (cause : ValueType → Fault.Cause) : Agree R (do raise (cause (← v.type h))) (do raise (cause (← v'.type h'))) :=
  A.likeness.raise_type hv cause

theorem items (A : Alike M h h') (hv : M.value v v') : Agree M.values (v.items h) (v'.items h') := A.likeness.items hv

theorem key (A : Alike M h h') (hv : M.value v v') : Agree Eq (v.key h) (v'.key h') := A.likeness.key hv

theorem equal (A : Alike M h h') (hv : M.value v v') (hw : M.value w w') : Agree Eq (v.equal h w) (v'.equal h' w') :=
  A.likeness.equal hv hw

theorem compare (A : Alike M h h') (hv : M.value v v') (hw : M.value w w') :
    Agree Eq (v.compare h w) (v'.compare h' w') :=
  A.likeness.compare hv hw

theorem contains (A : Alike M h h') (hv : M.value v v') (hw : M.value w w') :
    Agree Eq (v.contains h w) (v'.contains h' w') :=
  A.likeness.contains hv hw

theorem holds (A : Alike M h h') (op : Program.Comparison) (hv : M.value v v')
    (hw : M.value w w') : Agree Eq (v.holds h op w) (v'.holds h' op w') := by
  cases op with
  | eq => exact A.equal hv hw
  | ne => exact (A.equal hv hw).bind fun _ _ hb => .ok (by rw [hb])
  | mem => exact A.contains hw hv
  | notMem => exact (A.contains hw hv).bind fun _ _ hb => .ok (by rw [hb])
  | _ => exact (A.compare hv hw).bind fun _ _ ho => .ok (by rw [ho])

/-! ## Items -/

theorem item (A : Alike M h h') (hv : M.value v v') (hw : M.value w w') : Agree M.value (v.item h w) (v'.item h' w') :=
  A.likeness.item hv hw

/-- An assignment to an item changes matching containers alike, and only if they can change. -/
theorem itemEdit (A : Alike M h h') {c d : Cell} (hcd : M.cell c d) (hv : M.value v v') (hw : M.value w w') :
    Agree (fun e f => M.edit e f ∧ c.Mutable) (Value.itemEdit h c v w)
      (Value.itemEdit h' d v' w') := by
  have edits {c d : Cell} (hcd : c.Like M.value d) :
      Agree (fun e f => M.edit e f ∧ c.Mutable) (Value.itemEdit h c v w) (Value.itemEdit h' d v' w') := by
    refine (A.likeness.itemEdit hcd hv hw).imp fun e f hef => ⟨?_, hef.2⟩
    cases hef.1 with
    | setItem i hv => exact .setItem i hv
    | setEntry k hi hv => exact .setEntry k hi hv
  cases hcd with
  | list frozen hi => exact edits (.list frozen hi)
  | dict frozen he => exact edits (.dict frozen he)
  | _ => exact .raise _

/-! ## Arithmetic and joining -/

theorem agree_ofArithmetic (M : Matching) (r : Except Fault.Cause Integer) :
    Agree M.value (Value.ofArithmetic r) (Value.ofArithmetic r) := by
  cases r with
  | error cause => exact .raise cause
  | ok n => exact .ok (.int n)

theorem negate (A : Alike M h h') (hv : M.value v v') : Agree M.value (v.negate h) (v'.negate h') := by
  cases hv with
  | int n => exact agree_ofArithmetic M _
  | ref hab => exact A.raise_type (.ref hab) _
  | _ => exact .raise _

theorem combined (A : Alike M h h') (op : Program.Operator) (hv : M.value v v')
    (hw : M.value w w') : Agree M.plain (v.combined h op w) (v'.combined h' op w') := by
  refine (A.likeness.combined op hv hw).imp fun c d made => ?_
  cases made with
  | text s => exact ⟨.text s, Heap.CellKind.noConfusion⟩
  | list hi => exact ⟨.list false hi, Heap.CellKind.noConfusion⟩
  | tuple hi => exact ⟨.tuple hi, Heap.CellKind.noConfusion⟩

theorem list? (A : Alike M h h') (hv : M.value v v') :
    Agree (Option.Rel fun p q =>
        M.object p.1 q.1 ∧ p.2 = q.2 ∧ ∃ items, h.cell? p.1 = some (.list items p.2))
      (v.list? h) (v'.list? h') := by
  cases hv with
  | ref hab =>
    obtain ⟨c, d, hc, hd, hcd⟩ := A.object hab
    simp only [Value.list?, Heap.read_of_cell? hc, Heap.read_of_cell? hd]
    cases hcd with
    | list frozen _ => exact .ok (.some ⟨hab, rfl, _, hc⟩)
    | _ => exact .ok .none
  | _ => exact .ok .none

/-- An augmented assignment extends matching lists by matching values, and only if they can change. -/
theorem extension (A : Alike M h h') (op : Program.Operator) (hv : M.value v v') (hw : M.value w w') :
    Agree (Option.Rel fun p q => M.object p.1 q.1 ∧ M.values p.2 q.2 ∧ h.MutableAt p.1)
      (v.extension h op w) (v'.extension h' op w') := by
  unfold Value.extension
  split
  · refine (A.list? hv).bind fun p q hpq => ?_
    cases hpq with
    | none => exact .ok .none
    | @some p q hpq =>
      obtain ⟨a, frozen⟩ := p
      obtain ⟨b, _⟩ := q
      obtain ⟨hab, rfl, items, hc⟩ := hpq
      refine (A.items hw).bind fun vs ws hi => ?_
      cases frozen
      · exact .ok (.some ⟨hab, hi, _, hc, .list _⟩)
      · exact .raise _
  · exact .ok .none

/-! ## Attributes, keywords and host operations -/

theorem field? (A : Alike M h h') (hv : M.value v v') (attr : String) :
    Agree (Option.Rel M.value) (v.field? h attr) (v'.field? h' attr) := by
  cases hv with
  | ref hab =>
    refine (A.read hab).bind fun _ _ hcd => ?_
    cases hcd with
    | struct he =>
      have hf := he.find? attr
      refine .ok ?_
      generalize OrderedMap.find? _ attr = o at hf ⊢
      generalize OrderedMap.find? _ attr = o' at hf ⊢
      cases hf with
      | none => exact .none
      | some hf => exact .some hf.2
    | _ => exact .ok .none
  | _ => exact .ok .none

theorem spreadKeywords (A : Alike M h h') (hv : M.value v v') :
    Agree (List.Forall₂ fun e f => M.value e.1 f.1 ∧ M.value e.2 f.2)
      (v.spreadKeywords h) (v'.spreadKeywords h') := by
  cases hv with
  | ref hab =>
    refine (A.read hab).bind fun _ _ hcd => ?_
    cases hcd with
    | dict _ he => exact .ok (Matching.entries_values he)
    | _ => exact .raise _
  | _ => exact .raise _

theorem asKeyword (A : Alike M h h') (hv : M.value v v') : Agree Eq (v.asKeyword h) (v'.asKeyword h') := by
  refine (A.text? hv).bind fun s _ hs => ?_
  subst hs
  cases s with
  | some x => exact .ok rfl
  | none => exact A.raise_type hv _

theorem length (A : Alike M h h') (hv : M.value v v') : Agree Eq (v.length h) (v'.length h') := by
  refine (A.text? hv).bind fun s _ hs => ?_
  subst hs
  cases s with
  | some x => exact .ok rfl
  | none =>
    cases hv with
    | ref hab =>
      refine (A.read hab).bind fun _ _ hcd => ?_
      cases hcd with
      | list _ hi => exact .ok (size_eq_of_forall₂ hi)
      | tuple hi => exact .ok (size_eq_of_forall₂ hi)
      | dict _ he => exact .ok he.size_eq
      | _ => exact .raise _
    | _ => exact .raise _

/-- The list that a host function changes is the same on both sides and can change. -/
theorem openList (A : Alike M h h') (callee : String) (hv : M.value v v') :
    Agree (fun a b => M.object a b ∧ h.MutableAt a)
      (v.openList h callee) (v'.openList h' callee) := by
  cases hv with
  | ref hab =>
    obtain ⟨c, d, hc, hd, hcd⟩ := A.object hab
    simp only [Value.openList, Heap.read_of_cell? hc, Heap.read_of_cell? hd]
    cases hcd with
    | list frozen _ =>
      cases frozen
      · exact .ok ⟨hab, _, hc, .list _⟩
      · exact .raise _
    | _ => exact .raise _
  | _ => exact .raise _

/-! ## Frames -/

/-- The current frames, if there are any, stand for each other. -/
theorem enclosing (A : Alike M h h') (n : Nat) {p q : Option Address} (hpq : p.Rel M.frame q) :
    Agree (Option.Rel M.frame) (h.enclosing n p) (h'.enclosing n q) := by
  induction n generalizing p q with
  | zero => exact .ok hpq
  | succ n ih =>
    cases hpq with
    | none => exact .ok .none
    | some hab =>
      obtain ⟨f, g, hf, hg, hfg⟩ := A.frame hab
      simp only [Heap.enclosing, Heap.read_of_cell? hf, Heap.read_of_cell? hg]
      refine ih ?_
      cases hp : f.parent <;> cases hq : g.parent <;> have h' := hfg.parent <;> rw [hp, hq] at h' <;>
        cases h'
      · exact .none
      · rename_i hc
        exact .some (A.captured hc).1

theorem variableIn (A : Alike M h h') {p q : Option Address} (hpq : p.Rel M.frame q) (x : String) :
    Agree (Option.Rel M.value) (h.variableIn p x) (h'.variableIn q x) := by
  cases hpq with
  | none => exact .ok .none
  | some hab =>
    obtain ⟨f, g, hf, hg, hfg⟩ := A.frame hab
    simp only [Heap.variableIn, Heap.read_of_cell? hf, Heap.read_of_cell? hg]
    have hx := hfg.vars.find? x
    refine .ok ?_
    generalize f.vars.find? x = o at hx ⊢
    generalize g.vars.find? x = o' at hx ⊢
    cases hx with
    | none => exact .none
    | some hx => exact .some hx.2

end Alike

/-! ## Calls and objects -/

/-- Two libraries have the same host functions under the same names. -/
structure Library.SameHost (l l' : Library) : Prop where
  natives : l'.natives = l.natives
  builtins : l'.builtins = l.builtins
  methods : l'.methods = l.methods

/-- Two libraries have what a matching says there is, and what they name is in the matching. -/
structure Library.Serves (l l' : Library) (M : Matching) : Prop where
  host : l.SameHost l'
  native : ∀ {id}, M.native id → ∃ e, l.natives[id.index]? = some e
  function : ∀ {id id' n}, M.function id id' n →
    ∃ f f', l.functions[id.index]? = some f ∧ l'.functions[id'.index]? = some f' ∧ f'.name = f.name
  builtin : ∀ {x id}, l.builtins.find? x = some id → M.native id
  method : ∀ {type x id}, l.method? type x = some id → M.native id

/-- A name means the same among matching globals. -/
theorem Globals.lookup_agree {M : Matching} {l l' : Library} {g g' : Globals} (hl : l.Serves l' M)
    (hg : g.vars.Matches M.binding g'.vars) (x : String) : Agree M.value (g.lookup l x) (g'.lookup l' x) := by
  have hx := hg.find? x
  unfold Globals.lookup
  rw [hl.host.builtins]
  generalize g.vars.find? x = r at hx ⊢
  generalize g'.vars.find? x = r' at hx ⊢
  cases hx with
  | some hx => exact .ok hx.2
  | none =>
    cases hid : l.builtins.find? x with
    | some id => exact .ok (.native (hl.builtin hid))
    | none => exact .raise _

/-- Two callees match. -/
inductive Matching.callee (M : Matching) : Callee → Callee → Prop where
  | function {c d : Heap.Closure} (h : M.cell (.closure c) (.closure d)) :
    M.callee (.function c) (.function d)
  | native {id : NativeId} {r r' : Option Value} (h : M.native id) (receiver : r.Rel M.value r') :
    M.callee (.native id r) (.native id r')

namespace Alike

variable {M : Matching} {h h' : Heap} {v v' : Value} {l l' : Library}

theorem callee (A : Alike M h h') (hv : M.value v v') : Agree M.callee (v.callee h) (v'.callee h') := by
  cases hv with
  | ref hab =>
    refine (A.read hab).bind fun _ _ hcd => ?_
    cases hcd with
    | closure known defaults frame => exact .ok (.function (.closure known defaults frame))
    | method receiver known => exact .ok (.native known (.some receiver))
    | _ => exact .raise _
  | native known => exact .ok (.native known .none)
  | _ => exact .raise _

theorem contains_path (A : Alike M h h') {path path' : List Address}
    (hp : List.Forall₂ M.object path path') {a b : Address} (hab : M.object a b) :
    path.contains a = path'.contains b := by
  induction hp with
  | nil => rfl
  | cons hcd _ ih =>
    have hu := A.object_unique hab hcd
    simp only [List.contains_cons, ih, beq_eq_decide]
    congr 1
    exact decide_eq_decide.2 hu

theorem native_ok (hl : l.Serves l' M) {id : NativeId} (h : M.native id) :
    ∃ e, l.native id = .ok e ∧ l'.native id = .ok e := by
  obtain ⟨e, he⟩ := hl.native h
  exact ⟨e, by simp [Library.native, he], by simp [Library.native, hl.host.natives, he]⟩

/-- The mark of a cycle is the same for objects that stand for each other. -/
theorem read_cycleMark (A : Alike M h h') {a b : Address} (hab : M.object a b) :
    Agree Eq (do return Object.cycle (← h.read a).cycleMark)
      (do return Object.cycle (← h'.read b).cycleMark) := by
  refine (A.read hab).bind fun _ _ hcd => ?_
  cases hcd <;> exact .ok rfl

theorem unfoldWithin (A : Alike M h h') (hl : l.Serves l' M) (n : Nat) {path path' : List Address}
    (hp : List.Forall₂ M.object path path') (hv : M.value v v') :
    Agree Eq (v.unfoldWithin l h n path) (v'.unfoldWithin l' h' n path') := by
  have hnative {id : NativeId} (hid : M.native id) (text : NativeEntry → String) :
      Agree Eq (do return Object.described (text (← l.native id)))
        (do return Object.described (text (← l'.native id))) := by
    obtain ⟨e, he, he'⟩ := native_ok hl hid
    rw [he, he']
    exact .ok rfl
  induction n generalizing path path' v v' with
  | zero =>
    cases hv with
    | ref hab =>
      simp only [Value.unfoldWithin, A.contains_path hp hab]
      split
      · exact A.read_cycleMark hab
      · exact .ok rfl
    | native hid => exact hnative hid _
    | _ => exact .ok rfl
  | succ n ih =>
    cases hv with
    | ref hab =>
      simp only [Value.unfoldWithin, A.contains_path hp hab]
      split
      · exact A.read_cycleMark hab
      refine (A.read hab).bind fun _ _ hcd => ?_
      have hparts := fun {v v'} (hv : M.value v v') => ih (.cons hab hp) hv
      cases hcd with
      | text s => exact .ok rfl
      | list _ hi =>
        refine (Agree.mapM hi fun _ _ hv => hparts hv).bind fun os os' ho => ?_
        rw [List.forall₂_eq_eq_eq] at ho
        exact .ok (by rw [ho])
      | tuple hi =>
        refine (Agree.mapM hi fun _ _ hv => hparts hv).bind fun os os' ho => ?_
        rw [List.forall₂_eq_eq_eq] at ho
        exact .ok (by rw [ho])
      | dict _ he =>
        refine (Agree.mapM (S := Eq) (Matching.entries_values he) fun e f hef => ?_).bind
          fun os os' ho => ?_
        · exact (hparts hef.1).bind fun _ _ h₁ => (hparts hef.2).bind fun _ _ h₂ =>
            .ok (by rw [h₁, h₂])
        · rw [List.forall₂_eq_eq_eq] at ho
          exact .ok (by rw [ho])
      | struct he =>
        refine (Agree.mapM (S := Eq) he fun e f hef => ?_).bind fun os os' ho => ?_
        · exact (hparts hef.2.2).bind fun _ _ h₂ => .ok (by rw [hef.1, h₂])
        · rw [List.forall₂_eq_eq_eq] at ho
          exact .ok (by rw [ho])
      | closure known _ _ =>
        obtain ⟨f, f', hf, hf', name⟩ := hl.function known
        simp only [Library.function, hf, hf']
        exact .ok (by rw [name])
      | method receiver known =>
        obtain ⟨e, he, he'⟩ := native_ok hl known
        simp only [he, he']
        exact (A.type receiver).bind fun _ _ ht => .ok (by rw [ht])
    | native hid => exact hnative hid _
    | _ => exact .ok rfl

theorem unfold (A : Alike M h h') (hl : l.Serves l' M) (hv : M.value v v') :
    Agree Eq (v.unfold l h) (v'.unfold l' h') := by
  rw [Value.unfold_eq_unfoldWithin, Value.unfold_eq_unfoldWithin]
  exact A.unfoldWithin hl _ .nil hv

end Alike

end Scriptlet
