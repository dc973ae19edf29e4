import Scriptlet.Budget.Limits
import Scriptlet.Proofs.Tagged.Objects

/-!
# Reading gives back what was written

Programs, objects and limits are written as plain data and read back from it.
-/

namespace Scriptlet

/-! ## Limits -/

namespace Budget

open Datum

/-- The whole seconds of a duration are an unsigned 64-bit integer. -/
def Duration.Sized (d : Duration) : Prop := d.wholeSeconds < countBound

/-- All limits that are set are unsigned 64-bit integers. -/
structure Limits.Sized (l : Limits) : Prop where
  operations : ∀ n ∈ l.maxOperations, n < countBound
  allocations : ∀ n ∈ l.maxAllocations, n < countBound
  duration : ∀ d ∈ l.maxDuration, d.Sized
  memory : ∀ n ∈ l.maxMemory, n < countBound
  interval : ∀ n ∈ l.collectionInterval, n < countBound
  depth : ∀ n ∈ l.maxDepth, n < countBound

theorem natBelow?_nat {bound n : Nat} (h : n < bound) : (nat n).natBelow? bound = some n := by
  have range : (0 : Int) ≤ n ∧ (n : Int) < bound := by omega
  simp [natBelow?, nat, int?, range]

theorem count?_nat {n : Nat} (h : n < countBound) : (nat n).count? = some n := natBelow?_nat h

theorem Duration.restNanos_lt (d : Duration) : d.restNanos < nanosBound := by
  have rest : d.nanos % perSecond < perSecond := Nat.mod_lt _ (by simp [perSecond])
  have smaller : perSecond < nanosBound := by simp [perSecond, nanosBound]
  exact Nat.lt_trans rest smaller

theorem Duration.ofParts?_wholeSeconds {d : Duration} (h : d.Sized) : ofParts? d.wholeSeconds d.restNanos = some d := by
  have whole : d.wholeSeconds * perSecond + d.restNanos = d.nanos := by
    rw [wholeSeconds, restNanos, Nat.div_add_mod']
  simp only [ofParts?, whole]
  rw [if_pos]
  exact h

-- The steps are taken one by one because the kernel must not evaluate the comparison with the bound.
theorem Duration.ofDatum?_toDatum {d : Duration} (h : d.Sized) : ofDatum? d.toDatum = some d := by
  have names : ([("secs", nat d.wholeSeconds), ("nanos", nat d.restNanos)].all fun f =>
      f.1 == "secs" || f.1 == "nanos") = true := rfl
  rw [toDatum, ofDatum?, names]
  refine Option.bind_eq_some_iff.2 ⟨(), rfl, ?_⟩
  refine Option.bind_eq_some_iff.2 ⟨d.wholeSeconds, ?_, ?_⟩
  · rw [required?_cons_self]
    exact count?_nat h
  refine Option.bind_eq_some_iff.2 ⟨d.restNanos, ?_, ofParts?_wholeSeconds h⟩
  rw [required?_cons_ne _ (by decide), required?_cons_self]
  exact natBelow?_nat d.restNanos_lt

/-- A part that was written is read back, whether or not it is set. -/
theorem Limits.part?_ofOption {α : Type} {write : α → Datum} {read : Datum → Option α} {part : Option α}
    (set : ∀ a ∈ part, read (write a) = some a) (present : ∀ a, write a ≠ .null) :
    part? read (some (.ofOption write part)) = some part := by
  cases part with
  | none => rfl
  | some a =>
    have value_read := set a rfl
    have present := present a
    simp only [ofOption, part?]
    generalize write a = d at value_read present
    cases d <;> first | exact absurd rfl present | simp [optional?, value_read]

theorem Limits.ofDatum?_toDatum {l : Limits} (h : l.Sized) : ofDatum? l.toDatum = some l := by
  have counted {part : Option Nat} (hp : ∀ n ∈ part, n < countBound) :
      part? count? (some (.ofOption .nat part)) = some part :=
    part?_ofOption (fun n hn => count?_nat (hp n hn)) fun n => by simp [nat]
  have timed : part? Duration.ofDatum? (some (.ofOption Duration.toDatum l.maxDuration)) =
      some l.maxDuration :=
    part?_ofOption (fun d hd => Duration.ofDatum?_toDatum (h.duration d hd)) fun d => by
      simp [Duration.toDatum]
  simp [toDatum, ofDatum?, field?, List.lookup_cons, counted h.operations, counted h.allocations, timed,
    counted h.memory, counted h.interval, counted h.depth]

end Budget

/-! ## Main result -/

open Budget (Limits)
open Program (Arg Comparison Expr Operator Param Stmt Target)

/-- Every part of a program, every object and all limits are read back from the data they are written as. The data that
are read as an object are exactly its spellings, and whichever of them was read, the object is written with main tags
only and is read back from that. -/
theorem read_of_written :
    (∀ program : List Stmt, Program.ofDatum? (Program.toDatum program) = some program) ∧
    (∀ s : Stmt, Stmt.ofDatum? s.toDatum = some s) ∧
    (∀ e : Expr, Expr.ofDatum? e.toDatum = some e) ∧
    (∀ p : Param, Param.read p.toDatum.depth p.toDatum = some p) ∧
    (∀ a : Arg, Arg.read a.toDatum.depth a.toDatum = some a) ∧
    (∀ t : Target, Target.read t.toDatum.depth t.toDatum = some t) ∧
    (∀ op : Operator, Operator.ofDatum? (.text op.tag) = some op) ∧
    (∀ op : Comparison, Comparison.ofDatum? (.text op.tag) = some op) ∧
    (∀ o : Object, Object.ofDatum? o.toDatum = some o) ∧
    (∀ l : Limits, l.Sized → Limits.ofDatum? l.toDatum = some l) ∧
    (∀ (d : Datum) (o : Object), Object.ofDatum? d = some o ↔ Object.Spells d o) ∧
    (∀ (d : Datum) (o : Object), Object.ofDatum? d = some o →
      Object.ofDatum? o.toDatum = some o ∧ Object.Plain o.toDatum) := by
  refine ⟨Program.ofDatum?_toDatum, fun s => s.read_toDatum _ (Nat.le_refl _),
    fun e => e.read_toDatum _ (Nat.le_refl _), fun p => p.read_toDatum _ (Nat.le_refl _),
    fun a => a.read_toDatum _ (Nat.le_refl _), fun t => t.read_toDatum _ (Nat.le_refl _),
    Operator.ofDatum?_tag, Comparison.ofDatum?_tag, Object.ofDatum?_toDatum, fun l => l.ofDatum?_toDatum,
    fun d o => Object.ofDatum?_eq_some_iff, fun d o _ => ?_⟩
  exact ⟨o.ofDatum?_toDatum, o.plain_toDatum⟩

/-- A list under its second tag, with a none that carries null and an integer under its second tag. -/
def otherSpelling : Datum :=
  .tagged "list" (.list [.tagged "NoneType" .null, .tagged "int" (.int (-7))])

/-- The greatest limits there are, and some limits left open. -/
def widestLimits : Limits :=
  { maxOperations := some 18446744073709551615, maxDuration := some ⟨18446744073709551615999999999⟩ }

theorem sized_widestLimits : widestLimits.Sized where
  operations n hn := by
    obtain rfl := Option.some.inj hn
    decide
  allocations _ hn := by cases hn
  duration d hd := by
    obtain rfl := Option.some.inj hd
    unfold Budget.Duration.Sized
    decide
  memory _ hn := by cases hn
  interval _ hn := by cases hn
  depth _ hn := by cases hn

theorem read_of_written_otherSpelling :
    Object.Spells otherSpelling (.list [.none, .int (-7)]) ∧
    Object.ofDatum? otherSpelling = some (.list [.none, .int (-7)]) ∧
    Object.ofDatum? (Object.list [.none, .int (-7)]).toDatum = some (.list [.none, .int (-7)]) ∧
    widestLimits.Sized ∧ Limits.ofDatum? widestLimits.toDatum = some widestLimits := by
  obtain ⟨-, -, -, -, -, -, -, -, -, limits, spelled, again⟩ := read_of_written
  have spells : Object.Spells otherSpelling (.list [.none, .int (-7)]) :=
    .list (.inr rfl) (.cons (.null (.inr (.inr rfl))) (.cons (.int (.inr rfl) (-7)) .nil))
  have accepted := (spelled otherSpelling _).2 spells
  exact ⟨spells, accepted, (again _ _ accepted).1, sized_widestLimits, limits _ sized_widestLimits⟩

end Scriptlet
