import Mathlib.Data.List.Induction
import Scriptlet.Proofs.Data.Maps
import Scriptlet.Proofs.DirectBinding
import Scriptlet.Proofs.FailedBinding
import Scriptlet.Proofs.Heap.Changes

/-!
# The rules of binding

What a call's arguments do to a parameter list is said here without slots and defaults that are numbered: which
arguments are refused and why, and which value each parameter gets. Binding follows these rules for every accepted
parameter list, every number of arguments and both ways of binding.
-/

namespace Scriptlet

open Call (Args Filling)
open Fault (Cause)
open Heap (Cell)

/-- The meter lets objects of these sizes come one after another. -/
def Budget.Meter.Affords : Budget.Meter → List Nat → Prop
  | _, [] => True
  | m, size :: sizes => ∃ k, m.charge size = .ok k ∧ k.Affords sizes

/-! ## The rules -/

namespace Code

namespace ParamGroups

variable {f : Filling} {ps : List (String × Bool)}

/-- The parameters that take one argument each, the positional ones first. -/
def singles (g : ParamGroups) : List (String × Bool) := g.positional ++ g.keywordOnly

/-- The positional parameters with the arguments at their places. -/
def byPosition (g : ParamGroups) (args : Args) : List (String × Value) :=
  (g.positional.map Prod.fst).zip args.positional

/-- The parameters that have a default, with their defaults: positional ones before keyword-only ones. -/
def defaultValues (g : ParamGroups) (defaults : List Value) : List (String × Value) :=
  ((g.singles.filter (·.2)).map Prod.fst).zip defaults

/-- The argument for a parameter, if only some of the keywords are looked at. -/
def argument? (g : ParamGroups) (args : Args) (keywords : List (String × Value)) (x : String) : Option Value :=
  ((g.byPosition args).lookup x).or (keywords.lookup x)

/-- The value that a parameter gets: its argument, or else its default. -/
def value? (g : ParamGroups) (defaults : List Value) (args : Args) (x : String) : Option Value :=
  (g.argument? args args.keywords x).or ((g.defaultValues defaults).lookup x)

/-- Whether a keyword names no parameter. -/
def unknown (g : ParamGroups) (x : String) : Bool := x ∉ g.singles.map Prod.fst

/-- The required parameters without an argument, in the order of the list. -/
def lacking (g : ParamGroups) (args : Args) : List String :=
  (g.singles.filter fun p => !p.2 && (g.argument? args args.keywords p.1).isNone).map Prod.fst

/-- There are more positional arguments than there is room for. -/
def Overfull (g : ParamGroups) (args : Args) : Prop :=
  g.rest = none ∧ g.positional.length < args.positional.length

/-- A keyword that comes after some others is refused. -/
inductive Refuses (g : ParamGroups) (callee : String) (args : Args) (earlier : List (String × Value))
    (x : String) : Cause → Prop where
  /-- It names a parameter that has an argument, by position or by an earlier keyword. -/
  | filled (known : g.unknown x = false)
      (taken : x ∈ (g.byPosition args).map Prod.fst ∨ x ∈ earlier.map Prod.fst) :
      Refuses g callee args earlier x (.duplicateArgument callee x)
  /-- It repeats a keyword that was collected. -/
  | repeated (unknown : g.unknown x = true) (collects : g.keywords ≠ none) (again : x ∈ earlier.map Prod.fst) :
      Refuses g callee args earlier x (.duplicateArgument callee x)
  /-- It names no parameter, and such keywords are not collected. -/
  | unexpected (unknown : g.unknown x = true) (collects : g.keywords = none) :
      Refuses g callee args earlier x (.unexpectedKeyword callee x)

/-- None of the keywords is refused. -/
def Takes (g : ParamGroups) (callee : String) (args : Args) (keywords : List (String × Value)) : Prop :=
  ∀ earlier x v later, keywords = earlier ++ (x, v) :: later →
    ∀ cause, ¬ g.Refuses callee args earlier x cause

/-- What is wrong with the arguments of a call. -/
inductive Defect (g : ParamGroups) (callee : String) (args : Args) : Cause → Prop where
  | tooMany (overfull : g.Overfull args) :
      Defect g callee args (.tooManyArguments callee g.positional.length args.positional.length)
  /-- The first keyword that is refused. -/
  | keyword (room : ¬ g.Overfull args) {earlier later : List (String × Value)} {x : String} {v : Value}
      (split : args.keywords = earlier ++ (x, v) :: later) (takes : g.Takes callee args earlier) {cause : Cause}
      (refuses : g.Refuses callee args earlier x cause) : Defect g callee args cause
  | missing (room : ¬ g.Overfull args) (takes : g.Takes callee args args.keywords)
      (lacks : g.lacking args ≠ []) : Defect g callee args (.missingArguments callee (g.lacking args))

/-- Each of some parameters gets its value, and they come in order. -/
def Gives (g : ParamGroups) (defaults : List Value) (args : Args) (ps : List (String × Bool))
    (es : List (String × Value)) : Prop :=
  es.map (fun e => (e.1, some e.2)) = ps.map fun p => (p.1, g.value? defaults args p.1)

/-- If there is a collector, it gets a new object of some sort. -/
inductive Collects (h h' : Heap) (sort : Cell → Prop) : Option String → List (String × Value) → Prop where
  | absent : Collects h h' sort none []
  | given {x : String} {a : Address} {c : Cell} (fresh : h.cell? a = none) (made : h'.cell? a = some c)
      (holds : sort c) : Collects h h' sort (some x) [(x, .ref a)]

/-- The tuple of the positional arguments that are left over. -/
def restCell (g : ParamGroups) (args : Args) : Cell :=
  .tuple (args.positional.drop g.positional.length).toArray

/-- The entries of the dictionary of the keywords that name no parameter, in the order of the call. -/
def keywordEntries (g : ParamGroups) (args : Args) : List (Key × Value × Value) :=
  (args.keywords.filter fun kv => g.unknown kv.1).map fun kv => (.str kv.1, .text kv.1, kv.2)

/-- The dictionary with exactly these entries. -/
def IsKeywords (g : ParamGroups) (args : Args) (c : Cell) : Prop :=
  ∃ entries, c = .dict entries false ∧ entries.entries = g.keywordEntries args

def keywordsCell (g : ParamGroups) (args : Args) : Cell := .dict (.ofList (g.keywordEntries args)) false

/-- The objects that a call makes for the collectors, in this order. -/
def collectors (g : ParamGroups) (args : Args) : List Cell :=
  (g.rest.toList.map fun _ => g.restCell args) ++ g.keywords.toList.map fun _ => g.keywordsCell args

/-- The arguments are bound, each parameter once: the positional parameters, their collector, the keyword-only
parameters and their collector. No object that was there changes. -/
structure Binds (g : ParamGroups) (defaults : List Value) (args : Args) (h : Heap)
    (bound : List (String × Value)) (h' : Heap) : Prop where
  pairs : ∃ positional rest keywordOnly keywords, bound = positional ++ rest ++ keywordOnly ++ keywords ∧
    g.Gives defaults args g.positional positional ∧ Collects h h' (· = g.restCell args) g.rest rest ∧
    g.Gives defaults args g.keywordOnly keywordOnly ∧ Collects h h' (g.IsKeywords args) g.keywords keywords
  kept : ∀ a c, h.cell? a = some c → h'.cell? a = some c

/-! ## Filling the parameters -/

/-- The slots hold the arguments of the parameters, as far as some keywords have been looked at, and the other
keywords are collected. -/
structure Filled (g : ParamGroups) (args : Args) (keywords : List (String × Value)) (f : Filling) : Prop where
  slots : f.slots = g.singles.map fun p => g.argument? args keywords p.1
  collected : f.collected.entries = keywords.filter fun kv => g.unknown kv.1

variable {g : ParamGroups} {callee : String} {defaults : List Value} {args : Args}
  {earlier : List (String × Value)} {x : String} {v : Value} {cause : Cause}

theorem map_fst_named_ofGroups (g : ParamGroups) :
    (Signature.ofGroups g).named.map Prod.fst = g.singles.map Prod.fst := by
  simp [Signature.map_fst_named, Signature.ofGroups, Signature.map_fst_numberDefaults, singles]

theorem argument?_eq_none_iff : g.argument? args earlier x = none ↔
    x ∉ (g.byPosition args).map Prod.fst ∧ x ∉ earlier.map Prod.fst := by
  rw [argument?, Option.or_eq_none_iff, lookup_eq_none_iff_not_mem, lookup_eq_none_iff_not_mem]

/-- Looking up each of some names among these names in order gives the values in order. -/
theorem map_lookup_zip {xs : List String} (distinct : xs.Nodup) (vs : List Value) :
    xs.map (fun x => (xs.zip vs).lookup x) = Signature.slotsFor xs (vs.take xs.length) := by
  induction xs generalizing vs with
  | nil => simp [Signature.slotsFor]
  | cons x xs ih =>
    obtain ⟨fresh, distinct⟩ := List.nodup_cons.1 distinct
    cases vs with
    | nil =>
      rw [List.take_nil, Signature.slotsFor_cons_nil]
      simpa using ih distinct []
    | cons v vs =>
      rw [List.length_cons, List.take_succ_cons, Signature.slotsFor_cons_cons, ← ih distinct vs, List.map_cons,
        List.zip_cons_cons, List.lookup_cons_self]
      congr 1
      refine List.map_congr_left fun y hy => ?_
      have other : (y == x) = false := by simpa using fun e : y = x => fresh (e ▸ hy)
      rw [List.lookup_cons, other]

theorem mem_positional_of_byPosition (hx : x ∈ (g.byPosition args).map Prod.fst) : x ∈ g.positional.map Prod.fst := by
  obtain ⟨e, he, rfl⟩ := List.mem_map.1 hx
  exact (List.of_mem_zip he).1

theorem filled_start (args : Args) (distinct : (g.singles.map Prod.fst).Nodup) :
    g.Filled args [] (.start g.singles.length (args.positional.take g.positional.length)) := by
  rw [singles, List.map_append] at distinct
  obtain ⟨once, -, apart⟩ := List.nodup_append.1 distinct
  have positional : (g.positional.map fun p => g.argument? args [] p.1) =
      Signature.slotsFor (g.positional.map Prod.fst) (args.positional.take g.positional.length) := by
    have looked := map_lookup_zip once args.positional
    rw [List.map_map, List.length_map] at looked
    rw [← looked]
    refine List.map_congr_left fun p _ => ?_
    simp [argument?, byPosition]
  have keywordOnly : (g.keywordOnly.map fun p => g.argument? args [] p.1) =
      List.replicate g.keywordOnly.length none := by
    refine List.eq_replicate_iff.2 ⟨List.length_map _, fun o ho => ?_⟩
    obtain ⟨p, hp, rfl⟩ := List.mem_map.1 ho
    refine argument?_eq_none_iff.2 ⟨fun hx => ?_, by simp⟩
    exact apart _ (mem_positional_of_byPosition hx) _ (List.mem_map_of_mem hp) rfl
  refine ⟨?_, rfl⟩
  have count : (args.positional.take g.positional.length).length ≤ g.positional.length := by
    rw [List.length_take]
    exact Nat.min_le_left _ _
  rw [singles, List.map_append, positional, keywordOnly, Filling.start, Signature.slotsFor, List.append_assoc,
    List.replicate_append_replicate, List.length_append, List.length_map, Nat.sub_add_comm count]

/-- The place of a parameter among the named ones. -/
theorem findIdx?_named_eq_none_iff :
    (Signature.ofGroups g).named.findIdx? (fun p => decide (p.1 = x)) = none ↔ g.unknown x = true := by
  have names : x ∈ g.singles.map Prod.fst ↔ ∃ p ∈ (Signature.ofGroups g).named, p.1 = x := by
    rw [← map_fst_named_ofGroups, List.mem_map]
  rw [List.findIdx?_eq_none_iff, unknown, decide_eq_true_eq, names]
  simp only [decide_eq_false_iff_not, not_exists, not_and]

theorem findIdx?_named_eq_some {i : Nat}
    (hi : (Signature.ofGroups g).named.findIdx? (fun p => decide (p.1 = x)) = some i) :
    ∃ p, g.singles[i]? = some p ∧ p.1 = x := by
  obtain ⟨hlt, found, -⟩ := List.findIdx?_eq_some_iff_getElem.1 hi
  have name : (g.singles.map Prod.fst)[i]? = some x := by
    rw [← map_fst_named_ofGroups, List.getElem?_map, List.getElem?_eq_getElem hlt]
    exact congrArg some (of_decide_eq_true found)
  rw [List.getElem?_map] at name
  exact Option.map_eq_some_iff.1 name

theorem exists_place (known : g.unknown x = false) :
    ∃ i, (Signature.ofGroups g).named.findIdx? (fun p => decide (p.1 = x)) = some i := by
  rw [← Option.isSome_iff_exists, ← Option.ne_none_iff_isSome, ne_eq, findIdx?_named_eq_none_iff, known]
  exact Bool.false_ne_true

theorem contains_collected (filled : g.Filled args earlier f) (unknown : g.unknown x = true) :
    f.collected.contains x = true ↔ x ∈ earlier.map Prod.fst := by
  have keys : x ∈ f.collected.keys ↔ x ∈ earlier.map Prod.fst := by
    simp only [OrderedMap.keys, filled.collected, List.mem_map, List.mem_filter]
    constructor
    · rintro ⟨kv, ⟨hkv, -⟩, rfl⟩
      exact ⟨kv, hkv, rfl⟩
    · rintro ⟨kv, hkv, rfl⟩
      exact ⟨kv, ⟨hkv, unknown⟩, rfl⟩
  rw [← keys, OrderedMap.mem_keys_iff, OrderedMap.contains, Option.isSome_iff_exists]

/-- A keyword is refused for the reason that the rules give. -/
theorem takeKeyword_of_refuses (filled : g.Filled args earlier f) (refuses : g.Refuses callee args earlier x cause) :
    (Signature.ofGroups g).takeKeyword callee f (x, v) = raise cause := by
  have collector : (Signature.ofGroups g).keywords = g.keywords := rfl
  unfold Signature.takeKeyword
  cases refuses with
  | filled known taken =>
    obtain ⟨i, hi⟩ := exists_place known
    obtain ⟨p, hp, rfl⟩ := findIdx?_named_eq_some hi
    obtain ⟨w, hw⟩ : ∃ w, g.argument? args earlier p.1 = some w := by
      rw [← Option.isSome_iff_exists, ← Option.ne_none_iff_isSome, ne_eq, argument?_eq_none_iff]
      tauto
    simp only [hi, filled.slots, List.getElem?_map, hp, Option.map_some, hw]
  | repeated unknown collects again =>
    have seen := (contains_collected filled unknown).2 again
    simp only [findIdx?_named_eq_none_iff.2 unknown, collector, Option.isNone_eq_false_iff.2
      (Option.isSome_iff_ne_none.2 collects), Bool.false_eq_true, if_false, seen, if_true]
  | unexpected unknown collects =>
    simp only [findIdx?_named_eq_none_iff.2 unknown, collector, collects, Option.isNone_none, if_true]

theorem argument?_append (y : String) : g.argument? args (earlier ++ [(x, v)]) y =
    (g.argument? args earlier y).or (if y = x then some v else none) := by
  have single : List.lookup y [(x, v)] = if y = x then some v else none := by
    by_cases h : y = x
    · simp [h]
    · have other : (y == x) = false := by simpa using h
      rw [List.lookup_cons, other, if_neg h]
      rfl
  rw [argument?, argument?, List.lookup_append, Option.or_assoc, single]

/-- A keyword for a parameter without an argument changes the slot of this parameter only, since no other parameter has
its name. -/
theorem set_slot {i : Nat} {p : String × Bool} (hp : g.singles[i]? = some p)
    (empty : g.argument? args earlier p.1 = none) (distinct : (g.singles.map Prod.fst).Nodup) :
    (g.singles.map fun q => g.argument? args earlier q.1).set i (some v) =
      g.singles.map fun q => g.argument? args (earlier ++ [(p.1, v)]) q.1 := by
  have hlt : i < g.singles.length := (List.getElem?_eq_some_iff.1 hp).1
  refine List.ext_getElem? fun j => ?_
  simp only [argument?_append, List.getElem?_map]
  by_cases hj : i = j
  · subst hj
    rw [List.getElem?_set_self (by rwa [List.length_map]), hp, Option.map_some, empty, if_pos rfl, Option.none_or]
  · rw [List.getElem?_set_ne hj, List.getElem?_map]
    refine Option.map_congr fun q hq => ?_
    have other : q.1 ≠ p.1 := by
      intro same
      have names : (g.singles.map Prod.fst)[i]? = (g.singles.map Prod.fst)[j]? := by
        simp only [List.getElem?_map, hp, hq, Option.map_some, same]
      exact hj ((List.getElem?_inj (by rwa [List.length_map]) distinct).1 names)
    rw [if_neg other, Option.or_none]

/-- A keyword that is not refused gives its parameter the argument, or is collected. -/
theorem takeKeyword_of_takes (filled : g.Filled args earlier f)
    (takes : ∀ cause, ¬ g.Refuses callee args earlier x cause) (distinct : (g.singles.map Prod.fst).Nodup) :
    ∃ f', (Signature.ofGroups g).takeKeyword callee f (x, v) = .ok f' ∧
      g.Filled args (earlier ++ [(x, v)]) f' := by
  have collector : (Signature.ofGroups g).keywords = g.keywords := rfl
  unfold Signature.takeKeyword
  cases unknown : g.unknown x with
  | false =>
    obtain ⟨i, hi⟩ := exists_place unknown
    obtain ⟨p, hp, rfl⟩ := findIdx?_named_eq_some hi
    have empty : g.argument? args earlier p.1 = none := by
      rw [argument?_eq_none_iff, ← not_or]
      exact fun taken => takes _ (.filled unknown taken)
    simp only [hi, filled.slots, List.getElem?_map, hp, Option.map_some, empty]
    refine ⟨_, rfl, set_slot hp empty distinct, ?_⟩
    simp [filled.collected, unknown]
  | true =>
    have collects : g.keywords ≠ none := fun none => takes _ (.unexpected unknown none)
    have fresh : ¬ f.collected.contains x = true := by
      rw [contains_collected filled unknown]
      exact fun again => takes _ (.repeated unknown collects again)
    simp only [findIdx?_named_eq_none_iff.2 unknown, collector, Option.isNone_eq_false_iff.2
      (Option.isSome_iff_ne_none.2 collects), Bool.false_eq_true, if_false, fresh]
    refine ⟨_, rfl, ?_, ?_⟩
    · rw [filled.slots]
      refine List.map_congr_left fun q hq => ?_
      have other : q.1 ≠ x := by
        rintro rfl
        exact of_decide_eq_true unknown (List.mem_map_of_mem hq)
      rw [argument?_append, if_neg other, Option.or_none]
    · have absent : x ∉ f.collected.keys := by
        rw [OrderedMap.mem_keys_iff, ← Option.isSome_iff_exists]
        exact fresh
      rw [OrderedMap.entries_insert, OrderedMap.put_of_not_mem v absent, filled.collected]
      simp [unknown]

theorem Takes.of_snoc (takes : g.Takes callee args (earlier ++ [(x, v)])) :
    g.Takes callee args earlier ∧ ∀ cause, ¬ g.Refuses callee args earlier x cause := by
  refine ⟨fun before y w after split => ?_, takes earlier x v [] rfl⟩
  exact takes before y w (after ++ [(x, v)]) (by rw [split, List.append_assoc, List.cons_append])

theorem Takes.snoc (takes : g.Takes callee args earlier)
    (last : ∀ cause, ¬ g.Refuses callee args earlier x cause) : g.Takes callee args (earlier ++ [(x, v)]) := by
  intro before y w after split
  obtain rfl | ⟨after, e, rfl⟩ := List.eq_nil_or_concat after
  · obtain ⟨rfl, same⟩ := List.append_inj' split rfl
    cases same
    exact last
  · rw [List.concat_eq_append, ← List.cons_append, ← List.append_assoc] at split
    exact takes before y w after (List.append_inj' split rfl).1

/-- Keywords of which none is refused fill the parameters one after another. -/
theorem foldlM_of_takes {keywords : List (String × Value)} (takes : g.Takes callee args keywords)
    (distinct : (g.singles.map Prod.fst).Nodup) (filled : g.Filled args [] f) :
    ∃ f', keywords.foldlM ((Signature.ofGroups g).takeKeyword callee) f = .ok f' ∧
      g.Filled args keywords f' := by
  induction keywords using List.reverseRecOn with
  | nil => exact ⟨f, rfl, filled⟩
  | append_singleton earlier kv ih =>
    obtain ⟨x, v⟩ := kv
    obtain ⟨before, last⟩ := takes.of_snoc
    obtain ⟨f₁, ran, filled₁⟩ := ih before
    obtain ⟨f', step, filled'⟩ := takeKeyword_of_takes filled₁ last distinct
    refine ⟨f', ?_, filled'⟩
    rw [List.foldlM_append, ran]
    show (Signature.takeKeyword _ callee f₁ (x, v) >>= fun f => pure f) = _
    rw [step]
    rfl

/-- If a keyword is refused, there is a first one. -/
theorem takes_or_refuses (g : ParamGroups) (callee : String) (args : Args) (keywords : List (String × Value)) :
    g.Takes callee args keywords ∨ ∃ earlier x v later cause, keywords = earlier ++ (x, v) :: later ∧
      g.Takes callee args earlier ∧ g.Refuses callee args earlier x cause := by
  induction keywords using List.reverseRecOn with
  | nil =>
    left
    intro earlier x v later split
    simp at split
  | append_singleton before kv ih =>
    obtain ⟨y, w⟩ := kv
    obtain takes | ⟨earlier, x, v, later, cause, rfl, takes, refuses⟩ := ih
    · by_cases last : ∃ cause, g.Refuses callee args before y cause
      · obtain ⟨cause, refuses⟩ := last
        exact .inr ⟨before, y, w, [], cause, rfl, takes, refuses⟩
      · exact .inl (takes.snoc (not_exists.1 last))
    · exact .inr ⟨earlier, x, v, later ++ [(y, w)], cause, by simp, takes, refuses⟩

/-! ## What the parameters get -/

/-- The parameters with their slots. -/
theorem zip_numberDefaults (n : Nat) (ps : List (String × Bool)) (A : String → Option Value) :
    (Signature.numberDefaults n ps).zip (ps.map fun p => A p.1) =
      (Signature.numberDefaults n ps).map fun q => (q, A q.1) := by
  induction ps generalizing n with
  | nil => rfl
  | cons p ps ih =>
    obtain ⟨x, b⟩ := p
    cases b <;> simp [Signature.numberDefaults, ih]

theorem lacks_numberDefaults (n : Nat) (ps : List (String × Bool)) (A : String → Option Value) :
    ((Signature.numberDefaults n ps).map fun q => (q, A q.1)).filterMap Signature.lacks =
      (ps.filter fun p => !p.2 && (A p.1).isNone).map Prod.fst := by
  induction ps generalizing n with
  | nil => rfl
  | cons p ps ih =>
    obtain ⟨x, b⟩ := p
    cases b with
    | true => simpa [Signature.numberDefaults] using ih (n + 1)
    | false =>
      cases hx : A x with
      | none => simpa [Signature.numberDefaults, hx] using ih n
      | some v => simpa [Signature.numberDefaults, hx] using ih n

theorem le_of_mem_numberDefaults {n k : Nat} (h : (x, some k) ∈ Signature.numberDefaults n ps) : n ≤ k := by
  induction ps generalizing n with
  | nil => simp [Signature.numberDefaults] at h
  | cons p ps ih =>
    obtain ⟨y, b⟩ := p
    cases b with
    | true =>
      obtain h | h := List.mem_cons.1 h
      · cases h
        exact Nat.le_refl _
      · exact Nat.le_of_succ_le (ih h)
    | false =>
      obtain h | h := List.mem_cons.1 h
      · cases h
      · exact ih h

/-- The default at the number of a parameter is the one that belongs to it. -/
theorem lookup_default {n : Nat} (distinct : (ps.map Prod.fst).Nodup)
    {o : Option Nat} (h : (x, o) ∈ Signature.numberDefaults n ps) :
    o.bind (defaults[·]?) = (((ps.filter (·.2)).map Prod.fst).zip (defaults.drop n)).lookup x := by
  have names (n : Nat) (ps : List (String × Bool)) (h : (x, o) ∈ Signature.numberDefaults n ps) :
      x ∈ ps.map Prod.fst := by
    rw [← Signature.map_fst_numberDefaults n]
    exact List.mem_map_of_mem (f := Prod.fst) h
  induction ps generalizing n with
  | nil => simp [Signature.numberDefaults] at h
  | cons p ps ih =>
    obtain ⟨y, b⟩ := p
    obtain ⟨fresh, others⟩ := List.nodup_cons.1 distinct
    cases b with
    | true =>
      by_cases there : n < defaults.length
      · rw [List.filter_cons_of_pos rfl, List.map_cons, List.drop_eq_getElem_cons there, List.zip_cons_cons]
        obtain h | h := List.mem_cons.1 h
        · cases h
          rw [List.lookup_cons_self]
          exact List.getElem?_eq_getElem there
        · have other : (x == y) = false := by
            simpa using fun e : x = y => fresh (e ▸ names _ _ h)
          rw [List.lookup_cons, other]
          exact ih others h
      · rw [List.drop_eq_nil_of_le (Nat.le_of_not_lt there), List.zip_nil_right]
        cases o with
        | none => rfl
        | some k =>
          have later := le_of_mem_numberDefaults h
          exact List.getElem?_eq_none (by omega)
    | false =>
      obtain h | h := List.mem_cons.1 h
      · cases h
        refine (lookup_eq_none_iff_not_mem.2 fun hx => fresh ?_).symm
        obtain ⟨e, he, rfl⟩ := List.mem_map.1 hx
        obtain ⟨q, hq, same⟩ := List.mem_map.1 (List.of_mem_zip he).1
        exact List.mem_map.2 ⟨q, List.mem_of_mem_filter hq, same⟩
      · exact ih others h

/-- The parameters without a value are those that the rules name. -/
theorem missing_of_filled (filled : g.Filled args args.keywords f)
    (last : DefaultsLast g.positional) : (Signature.ofGroups g).missing f.slots = g.lacking args := by
  rw [Signature.missing_eq_lacks, Signature.named_ofGroups last, filled.slots]
  exact (congrArg _ (zip_numberDefaults 0 g.singles _)).trans (lacks_numberDefaults 0 g.singles _)

/-- The values of the parameters are those that the rules give them. -/
theorem values_of_filled (filled : g.Filled args args.keywords f)
    (last : DefaultsLast g.positional) (distinct : (g.singles.map Prod.fst).Nodup) :
    ((Signature.ofGroups g).named.zip f.slots).filterMap
        (fun e => (Signature.valueOf defaults e).map (e.1.1, ·)) =
      g.singles.filterMap fun p => (g.value? defaults args p.1).map (p.1, ·) := by
  have named : (Signature.ofGroups g).named = Signature.numberDefaults 0 g.singles :=
    Signature.named_ofGroups last
  have names := Signature.map_fst_numberDefaults 0 g.singles
  rw [named, filled.slots, zip_numberDefaults 0 g.singles, List.filterMap_map]
  calc _ = (Signature.numberDefaults 0 g.singles).filterMap
        ((fun x => (g.value? defaults args x).map (x, ·)) ∘ Prod.fst) := by
        refine List.filterMap_congr fun q hq => ?_
        simp only [Function.comp, Signature.valueOf, lookup_default distinct hq, List.drop_zero]
        rfl
    _ = _ := by rw [← List.filterMap_map, names, List.filterMap_map]; rfl

theorem gives_filterMap (all : ∀ p ∈ ps, g.value? defaults args p.1 ≠ none) :
    g.Gives defaults args ps (ps.filterMap fun p => (g.value? defaults args p.1).map (p.1, ·)) := by
  unfold Gives
  induction ps with
  | nil => rfl
  | cons p ps ih =>
    obtain ⟨first, others⟩ := List.forall_mem_cons.1 all
    obtain ⟨v, hv⟩ := Option.ne_none_iff_exists'.1 first
    rw [List.filterMap_cons, hv, Option.map_some, List.map_cons, List.map_cons, ih others, hv]

/-- If no required parameter lacks an argument, all parameters get a value. -/
theorem value?_ne_none (counted : defaults.length = g.defaultsCount) (complete : g.lacking args = [])
    {p : String × Bool} (hp : p ∈ g.singles) : g.value? defaults args p.1 ≠ none := by
  intro lost
  obtain ⟨unsupplied, noDefault⟩ := Option.or_eq_none_iff.1 lost
  cases flag : p.2 with
  | false =>
    have lacks : p.1 ∈ g.lacking args := by
      refine List.mem_map_of_mem (List.mem_filter.2 ⟨hp, ?_⟩)
      simp [flag, unsupplied]
    rw [complete] at lacks
    cases lacks
  | true =>
    have length : ((g.singles.filter (·.2)).map Prod.fst).length ≤ defaults.length := by
      rw [counted, List.length_map, singles, List.filter_append, List.length_append, defaultsCount]
    refine lookup_eq_none_iff_not_mem.1 noDefault ?_
    rw [defaultValues, List.map_fst_zip length]
    exact List.mem_map_of_mem (List.mem_filter.2 ⟨hp, flag⟩)

/-! ## Results and refusals -/

theorem fill_of_overfull (overfull : g.Overfull args) : (Signature.ofGroups g).fill callee args =
    raise (.tooManyArguments callee g.positional.length args.positional.length) := by
  obtain ⟨none, many⟩ := overfull
  simp [Signature.fill, Signature.ofGroups, none, many]

theorem fill_of_room (room : ¬ g.Overfull args) : (Signature.ofGroups g).fill callee args =
    args.keywords.foldlM ((Signature.ofGroups g).takeKeyword callee)
      (.start g.singles.length (args.positional.take g.positional.length)) := by
  have positional : (Signature.ofGroups g).positional.length = g.positional.length := List.length_map _
  have named : (Signature.ofGroups g).named.length = g.singles.length := by
    rw [← List.length_map Prod.fst, map_fst_named_ofGroups, List.length_map]
  have fits : ¬ ((Signature.ofGroups g).rest.isNone && decide (g.positional.length < args.positional.length)) =
      true := by
    rw [Bool.and_eq_true, Option.isNone_iff_eq_none, decide_eq_true_eq]
    exact room
  simp only [Signature.fill, positional, named, fits, Bool.false_eq_true, if_false]

/-- The first keyword that is refused stops the filling. -/
theorem fill_of_refuses (distinct : (g.singles.map Prod.fst).Nodup) (room : ¬ g.Overfull args)
    {later : List (String × Value)} (split : args.keywords = earlier ++ (x, v) :: later)
    (takes : g.Takes callee args earlier) (refuses : g.Refuses callee args earlier x cause) :
    (Signature.ofGroups g).fill callee args = raise cause := by
  obtain ⟨f, ran, filled⟩ := foldlM_of_takes takes distinct (filled_start args distinct)
  have refused : (Signature.ofGroups g).takeKeyword callee f (x, v) = raise cause :=
    takeKeyword_of_refuses filled refuses
  rw [fill_of_room room, split, List.foldlM_append, ran]
  show ((Signature.ofGroups g).takeKeyword callee f (x, v) >>= fun f => _) = _
  rw [refused]
  rfl

theorem default_there (counted : defaults.length = g.defaultsCount) {slots : List (Option Value)} :
    ∀ e ∈ (Signature.ofGroups g).named.zip slots, ∀ k ∈ e.1.2, k < defaults.length := by
  intro e he k hk
  rw [counted, ← defaultsCount_ofGroups]
  exact (Signature.numbered_ofGroups g).lt_defaultsCount (List.of_mem_zip he).1 hk

/-- Arguments with a defect are refused for it. -/
theorem settle_of_defect (distinct : (g.singles.map Prod.fst).Nodup) (last : DefaultsLast g.positional)
    (counted : defaults.length = g.defaultsCount) (defect : g.Defect callee args cause) :
    (Signature.ofGroups g).settle callee defaults args = raise cause := by
  cases defect with
  | tooMany overfull =>
    rw [Signature.settle, fill_of_overfull overfull]
    rfl
  | keyword room split takes refuses =>
    rw [Signature.settle, fill_of_refuses distinct room split takes refuses]
    rfl
  | missing room takes lacks =>
    obtain ⟨f, ran, filled⟩ := foldlM_of_takes takes distinct (filled_start args distinct)
    rw [← fill_of_room room] at ran
    rw [← missing_of_filled filled last] at lacks ⊢
    exact Signature.settle_of_missing ran (default_there counted) lacks

/-- Arguments without a defect give each parameter its value, and the other keywords are collected, each once. -/
theorem settle_of_sound (distinct : (g.singles.map Prod.fst).Nodup) (last : DefaultsLast g.positional)
    (counted : defaults.length = g.defaultsCount) (sound : ∀ cause, ¬ g.Defect callee args cause) :
    let others := args.keywords.filter fun kv => g.unknown kv.1
    (others.map Prod.fst).Nodup ∧ ∃ positional keywordOnly,
      g.Gives defaults args g.positional positional ∧ g.Gives defaults args g.keywordOnly keywordOnly ∧
      (Signature.ofGroups g).settle callee defaults args = .ok (positional ++ keywordOnly, others) := by
  have room : ¬ g.Overfull args := fun overfull => sound _ (.tooMany overfull)
  have takes : g.Takes callee args args.keywords := by
    obtain takes | ⟨earlier, x, v, later, cause, split, takes, refuses⟩ :=
      g.takes_or_refuses callee args args.keywords
    · exact takes
    · exact absurd (.keyword room split takes refuses) (sound cause)
  have complete : g.lacking args = [] := by
    by_contra lacks
    exact sound _ (.missing room takes lacks)
  obtain ⟨f, ran, filled⟩ := foldlM_of_takes takes distinct (filled_start args distinct)
  rw [← fill_of_room room] at ran
  have all := fun p (hp : p ∈ g.singles) => value?_ne_none counted complete hp
  refine ⟨?_, _, _, gives_filterMap fun p hp => all p (List.mem_append_left _ hp),
    gives_filterMap fun p hp => all p (List.mem_append_right _ hp), ?_⟩
  · rw [← filled.collected]
    exact f.collected.nodup_keys
  · rw [← missing_of_filled filled last] at complete
    rw [Signature.settle_of_filled ran (default_there counted) complete, filled.collected,
      values_of_filled filled last distinct, singles, List.filterMap_append]

/-! ## Collectors -/

variable {h h' : Heap}

theorem Collects.mono {sort : Cell → Prop} {collector : Option String} {es : List (String × Value)} {k k' : Heap}
    (collects : Collects h h' sort collector es) (fresh : ∀ a, h.cell? a = none → k.cell? a = none)
    (kept : ∀ a c, h'.cell? a = some c → k'.cell? a = some c) : Collects k k' sort collector es := by
  cases collects with
  | absent => exact .absent
  | given new made holds => exact .given (fresh _ new) (kept _ _ made) holds

/-- A collector gets its object if the meter affords it. -/
theorem collects_into {P : Cell → Prop} (tidy : h.Tidy) {c : Cell} (holds : P c) {collector : Option String}
    {sizes : List Nat} (allowed : h.meter.Affords (collector.toList.map (fun _ => c.size) ++ sizes)) :
    ∃ es h', Signature.collectInto collector c h = .ok es h' ∧ Collects h h' P collector es ∧
      (∀ b d, h.cell? b = some d → h'.cell? b = some d) ∧ h'.Tidy ∧ h'.meter.Affords sizes := by
  cases collector with
  | none => exact ⟨[], h, rfl, .absent, fun _ _ hb => hb, tidy, allowed⟩
  | some x =>
    obtain ⟨meter, charged, rest⟩ := allowed
    obtain ⟨use, refused, -⟩ | ⟨_, a, h', charged', ran, placed, rfl⟩ := Heap.allocate_cases tidy c
    · rw [charged] at refused
      cases refused
    · rw [charged] at charged'
      cases charged'
      exact ⟨[(x, .ref a)], h', bind_of_ok ran, .given placed.fresh placed.cell?_self holds,
        fun b d hb => placed.cell?_of_some hb, placed.tidy, rest⟩

theorem collectRest_ofGroups (g : ParamGroups) (args : Args) :
    (Signature.ofGroups g).collectRest args = Signature.collectInto g.rest (g.restCell args) := by
  rw [Signature.collectRest_eq, Signature.restCell, Signature.ofGroups, List.length_map]
  rfl

theorem isKeywords_keywordsCell (distinct : ((args.keywords.filter fun kv => g.unknown kv.1).map Prod.fst).Nodup) :
    g.IsKeywords args (g.keywordsCell args) := by
  refine ⟨_, rfl, (OrderedMap.entries_ofList _).trans (OrderedMap.lastWins_eq_self ?_)⟩
  rw [keywordEntries, List.map_map]
  have keys := distinct.map (f := Key.str) fun _ _ => Key.str.inj
  rwa [List.map_map] at keys

/-! ## Both ways of binding -/

/-- With the defaults that belong to it, a signature binds as in the general way. -/
theorem bind_eq_bindFully (counted : defaults.length = g.defaultsCount) :
    (Signature.ofGroups g).bind callee defaults args = (Signature.ofGroups g).bindFully callee defaults args := by
  unfold Signature.bind
  split
  · rename_i direct
    obtain ⟨only, none⟩ := Bool.and_eq_true_iff.1 direct
    obtain ⟨given, keywords⟩ := args
    obtain rfl : keywords = [] := List.isEmpty_iff.1 none
    have enough : (Signature.ofGroups g).defaulted ≤ defaults.length := by
      rw [counted, defaultsCount]
      exact Nat.le_add_right _ _
    exact (Signature.bindFully_eq_bindPositional only enough).symm
  · rfl

/-- Arguments without a defect are bound by the rules. -/
theorem bindFully_of_sound (distinct : (g.singles.map Prod.fst).Nodup) (last : DefaultsLast g.positional)
    (counted : defaults.length = g.defaultsCount) (tidy : h.Tidy)
    (allowed : h.meter.Affords ((g.collectors args).map Cell.size)) (sound : ∀ cause, ¬ g.Defect callee args cause) :
    ∃ bound h', (Signature.ofGroups g).bindFully callee defaults args h = .ok bound h' ∧
      g.Binds defaults args h bound h' := by
  obtain ⟨once, positional, keywordOnly, first, second, settled⟩ := settle_of_sound distinct last counted sound
  rw [collectors, List.map_append, List.map_map, List.map_map] at allowed
  obtain ⟨rest, h₁, ranRest, collectsRest, kept₁, tidy₁, allowed₁⟩ :=
    collects_into (P := (· = g.restCell args)) tidy rfl allowed
  rw [← List.append_nil (g.keywords.toList.map _)] at allowed₁
  obtain ⟨keywords, h₂, ranKeywords, collectsKeywords, kept₂, -⟩ :=
    collects_into tidy₁ (isKeywords_keywordsCell once) allowed₁
  rw [← collectRest_ofGroups] at ranRest
  have length : positional.length = (Signature.ofGroups g).positional.length := by
    have same := congrArg List.length first
    simpa [Signature.ofGroups] using same
  have looked : Heap.inspect (fun _ => (Signature.ofGroups g).settle callee defaults args) h =
      .ok (positional ++ keywordOnly, args.keywords.filter fun kv => g.unknown kv.1) h := by
    simp only [Heap.inspect, settled]
  refine ⟨positional ++ rest ++ keywordOnly ++ keywords, h₂, ?_, ⟨_, _, _, _, rfl, first, ?_, second, ?_⟩, ?_⟩
  · unfold Signature.bindFully
    rw [bind_of_ok looked]
    simp only [List.splitAt_eq, ← length, List.take_left, List.drop_left]
    rw [bind_of_ok ranRest]
    exact bind_of_ok ranKeywords
  · exact collectsRest.mono (fun _ ha => ha) kept₂
  · refine collectsKeywords.mono (fun a ha => ?_) fun _ _ hc => hc
    cases hc : h.cell? a with
    | none => rfl
    | some c => simp [kept₁ a c hc] at ha
  · exact fun a c hc => kept₂ a c (kept₁ a c hc)

end ParamGroups

open ParamGroups in
/-- For every accepted parameter list, with its defaults at hand and a meter that allows the collectors, binding fails
exactly if the rules find a defect, with this defect and without touching the heap. Otherwise it gives every
parameter its value, in order, and each collector what is left over for it. -/
theorem bind_follows_rules {function : String} {params : List Program.Param} {g : ParamGroups}
    (accepted : ParamGroups.ofParams function params = .ok g) {defaults : List Value}
    (counted : defaults.length = (Signature.ofGroups g).defaultsCount) (callee : String) (args : Args) {h : Heap}
    (tidy : h.Tidy) (allowed : h.meter.Affords ((g.collectors args).map Cell.size)) :
    (∀ f h', (Signature.ofGroups g).bind callee defaults args h = .error f h' ↔
      h' = h ∧ ∃ cause, f = .ofCause cause ∧ g.Defect callee args cause) ∧
    ((∀ cause, ¬ g.Defect callee args cause) →
      ∃ bound h', (Signature.ofGroups g).bind callee defaults args h = .ok bound h' ∧
        g.Binds defaults args h bound h') := by
  have sorts := ParamGroups.sorts_of_ofParams accepted
  have distinct : (g.singles.map Prod.fst).Nodup := map_fst_named_ofGroups g ▸ sorts.nodup_named
  rw [defaultsCount_ofGroups] at counted
  rw [bind_eq_bindFully counted]
  have refused {cause : Cause} (defect : g.Defect callee args cause) :
      (Signature.ofGroups g).bindFully callee defaults args h = .error (.ofCause cause) h := by
    have settled := settle_of_defect distinct sorts.last counted defect
    refine bind_of_error ?_
    simp only [Heap.inspect, settled]
    rfl
  have bound (sound : ∀ cause, ¬ g.Defect callee args cause) :=
    bindFully_of_sound distinct sorts.last counted tidy allowed sound
  refine ⟨fun f h' => ⟨fun failed => ?_, ?_⟩, bound⟩
  · by_cases sound : ∀ cause, ¬ g.Defect callee args cause
    · obtain ⟨_, _, ran, -⟩ := bound sound
      rw [ran] at failed
      cases failed
    · obtain ⟨cause, defect⟩ := not_forall_not.1 sound
      rw [refused defect] at failed
      cases failed
      exact ⟨rfl, cause, rfl, defect⟩
  · rintro ⟨rfl, cause, rfl, defect⟩
    exact refused defect

/-- A parameter list with all sorts of parameters: `a, b = False, *more, c, d = True, **others`. -/
def mixedParams : List Program.Param :=
  [.required "a", .defaulted "b" (.bool false), .rest "more", .required "c", .defaulted "d" (.bool true),
    .keywords "others"]

def mixedGroups : ParamGroups where
  positional := [("a", false), ("b", true)]
  rest := some "more"
  keywordOnly := [("c", false), ("d", true)]
  keywords := some "others"

/-- Binds `(None, None, None, c = None, e = None)`. -/
theorem bind_follows_rules_mixed :
    let args : Args := ⟨[.none, .none, .none], [("c", .none), ("e", .none)]⟩
    let h := Heap.empty (.depthOnly none)
    ParamGroups.ofParams "f" mixedParams = .ok mixedGroups ∧
    ∃ bound h', (Signature.ofGroups mixedGroups).bind "f" [.bool false, .bool true] args h = .ok bound h' ∧
      mixedGroups.Binds [.bool false, .bool true] args h bound h' := by
  intro args h
  have accepted : ParamGroups.ofParams "f" mixedParams = .ok mixedGroups := by decide +kernel
  have counted : [Value.bool false, .bool true].length = (Signature.ofGroups mixedGroups).defaultsCount := rfl
  have rules := bind_follows_rules accepted counted "f" args (Heap.tidy_empty (.depthOnly none))
    ⟨_, rfl, _, rfl, trivial⟩
  refine ⟨accepted, rules.2 fun cause defect => ?_⟩
  have failed := (rules.1 (.ofCause cause) h).2 ⟨rfl, cause, rfl, defect⟩
  cases failed

end Code

end Scriptlet
