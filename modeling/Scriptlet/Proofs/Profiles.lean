import Scriptlet.Proofs.Data.Tallies
import Scriptlet.Proofs.Tracing.Runs

/-!
# Profiles agree with full traces

A profile counts events as they come and forgets them. Its report is nevertheless the one that the events themselves
give: the numbers of events of each sort, the greatest depth, and the called functions in an order that leaves nothing
open, so that it does not matter in which order the counts were kept.
-/

namespace Scriptlet.Trace

/-! ## What the events say -/

namespace Event

def isStatement : Event → Bool
  | .statement .. => true
  | _ => false

def isEnter : Event → Bool
  | .enter .. => true
  | _ => false

def isMakeFunction : Event → Bool
  | .makeFunction .. => true
  | _ => false

def isOuterLoad : Event → Bool
  | .outerLoad .. => true
  | _ => false

end Event

/-- How often the events say that a function was entered. -/
def callsOf (name : String) (es : List Event) : Nat := es.countP fun e => e.entered? == some name

/-- The order of a report: decreasing counts, and names in increasing order where the counts are equal. -/
def Precedes (a b : String × Nat) : Prop := b.2 < a.2 ∨ a.2 = b.2 ∧ a.1 < b.1

/-- The numbers of a report, apart from those of single functions, are those of the events. -/
structure Report.Totals (r : Report) (es : List Event) : Prop where
  statements : r.statements = es.countP Event.isStatement
  totalCalls : r.totalCalls = es.countP Event.isEnter
  functionsMade : r.functionsMade = es.countP Event.isMakeFunction
  outerLoads : r.outerLoads = es.countP Event.isOuterLoad
  depth_le : ∀ name depth, .enter name depth ∈ es → depth ≤ r.maxDepth
  /-- The greatest depth is that of a call, or there was no call and it is zero. -/
  depth_reached : (∃ name, .enter name r.maxDepth ∈ es) ∨ r.maxDepth = 0 ∧ ∀ name depth, .enter name depth ∉ es

/-- What a report says is what the events say. -/
structure Report.Summarizes (r : Report) (es : List Event) : Prop extends r.Totals es where
  /-- The names listed are those of the functions that were called, with the numbers of their calls. -/
  listed : ∀ name n, (name, n) ∈ r.callCounts ↔ n = callsOf name es ∧ 0 < n
  once : (r.callCounts.map Prod.fst).Nodup
  ordered : r.callCounts.Pairwise Precedes
  total : tallied r.callCounts = r.totalCalls

/-! ## The order of a report -/

theorem Profile.before_iff {a b : String × Nat} : Profile.before a b = true ↔ b.2 < a.2 ∨ a.2 = b.2 ∧ a.1 ≤ b.1 := by
  simp only [before, Bool.or_eq_true, Bool.and_eq_true, decide_eq_true_eq, beq_iff_eq, Bool.not_eq_true',
    decide_eq_false_iff_not, String.not_lt]

theorem Precedes.before {a b : String × Nat} (precedes : Precedes a b) : Profile.before a b = true := by
  rw [Profile.before_iff]
  rcases precedes with fewer | ⟨equal, less⟩
  · exact .inl fewer
  · exact .inr ⟨equal, String.not_lt.1 fun more => String.lt_irrefl _ (String.lt_trans less more)⟩

theorem Profile.before_trans (a b c : String × Nat) (ab : before a b = true) (bc : before b c = true) :
    before a c = true := by
  rw [before_iff] at ab bc ⊢
  rcases ab with fewer | ⟨equal, le⟩
  · exact .inl (by omega)
  · rcases bc with fewer | ⟨equal', le'⟩
    · exact .inl (by omega)
    · exact .inr ⟨by omega, String.le_trans le le'⟩

theorem Profile.before_total (a b : String × Nat) : (before a b || before b a) = true := by
  rw [Bool.or_eq_true, before_iff, before_iff]
  rcases Nat.lt_trichotomy a.2 b.2 with fewer | equal | more
  · exact .inr (.inl fewer)
  · rcases String.le_total a.1 b.1 with le | le
    · exact .inl (.inr ⟨equal, le⟩)
    · exact .inr (.inr ⟨equal.symm, le⟩)
  · exact .inl (.inl more)

theorem Profile.before_antisymm {a b : String × Nat} (ab : before a b = true) (ba : before b a = true) : a = b := by
  rw [before_iff] at ab ba
  have counts : a.2 = b.2 := by omega
  have le : a.1 ≤ b.1 := by
    rcases ab with fewer | ⟨-, le⟩
    · omega
    · exact le
  have le' : b.1 ≤ a.1 := by
    rcases ba with fewer | ⟨-, le⟩
    · omega
    · exact le
  exact Prod.ext (String.le_antisymm le le') counts

/-- There is one way to put counts into the order of a report. -/
theorem Profile.eq_of_ordered {counts counts' : List (String × Nat)}
    (ordered : counts.Pairwise fun a b => before a b = true)
    (ordered' : counts'.Pairwise fun a b => before a b = true) (perm : counts.Perm counts') : counts = counts' :=
  perm.eq_of_pairwise (fun _ _ _ _ => before_antisymm) ordered ordered'

theorem Profile.ordered_mergeSort (counts : List (String × Nat)) :
    (counts.mergeSort before).Pairwise fun a b => before a b = true :=
  List.pairwise_mergeSort before_trans before_total counts

/-- It does not matter in which order the counts are before they are sorted. -/
theorem Profile.mergeSort_eq {counts counts' : List (String × Nat)} (perm : counts.Perm counts') :
    counts.mergeSort before = counts'.mergeSort before := by
  refine eq_of_ordered (ordered_mergeSort counts) (ordered_mergeSort counts') ?_
  calc
    (counts.mergeSort before).Perm counts := List.mergeSort_perm counts before
    counts.Perm counts' := perm
    counts'.Perm (counts'.mergeSort before) := (List.mergeSort_perm counts' before).symm

/-- If no name is listed twice, no two places of a report could be exchanged. -/
theorem Profile.precedes_of_ordered {counts : List (String × Nat)}
    (ordered : counts.Pairwise fun a b => before a b = true) (once : (counts.map Prod.fst).Nodup) :
    counts.Pairwise Precedes := by
  have names : counts.Pairwise fun a b => a.1 ≠ b.1 := List.pairwise_map.1 once
  refine (ordered.and names).imp fun {a b} both => ?_
  obtain ⟨before, distinct⟩ := both
  rcases before_iff.1 before with fewer | ⟨equal, le⟩
  · exact .inl fewer
  · refine .inr ⟨equal, ?_⟩
    by_cases less : a.1 < b.1
    · exact less
    · exact absurd (String.le_antisymm le (String.not_lt.1 less)) distinct

/-- The events leave nothing open about the report. -/
theorem Report.Summarizes.unique {r r' : Report} {es : List Event} (sum : r.Summarizes es) (sum' : r'.Summarizes es) :
    r = r' := by
  have nodup {r : Report} (sum : r.Summarizes es) : r.callCounts.Nodup :=
    List.Pairwise.of_map Prod.fst (fun _ _ distinct same => distinct (congrArg Prod.fst same)) sum.once
  have perm : r.callCounts.Perm r'.callCounts := by
    refine (List.perm_ext_iff_of_nodup (nodup sum) (nodup sum')).2 fun c => ?_
    rw [sum.listed c.1 c.2, sum'.listed c.1 c.2]
  have counts : r.callCounts = r'.callCounts :=
    Profile.eq_of_ordered (sum.ordered.imp Precedes.before) (sum'.ordered.imp Precedes.before) perm
  have depth : r.maxDepth = r'.maxDepth := by
    rcases sum.depth_reached with ⟨name, called⟩ | ⟨zero, silent⟩
    · rcases sum'.depth_reached with ⟨name', called'⟩ | ⟨-, silent'⟩
      · exact Nat.le_antisymm (sum'.depth_le _ _ called) (sum.depth_le _ _ called')
      · exact absurd called (silent' _ _)
    · rcases sum'.depth_reached with ⟨name', called'⟩ | ⟨zero', -⟩
      · exact absurd called' (silent _ _)
      · rw [zero, zero']
  obtain ⟨callCounts, statements, maxDepth, totalCalls, functionsMade, outerLoads⟩ := r
  obtain ⟨callCounts', statements', maxDepth', totalCalls', functionsMade', outerLoads'⟩ := r'
  rw [Report.mk.injEq]
  exact ⟨counts, sum.statements.trans sum'.statements.symm, depth, sum.totalCalls.trans sum'.totalCalls.symm,
    sum.functionsMade.trans sum'.functionsMade.symm, sum.outerLoads.trans sum'.outerLoads.symm⟩

/-! ## Counting as the events come -/

/-- The counts that a profile keeps are those of the events so far. -/
structure Profile.Counts (p : Profile) (es : List Event) : Prop extends p.report.Totals es where
  calls : ∀ name, p.calls.find? name = if callsOf name es = 0 then none else some (callsOf name es)
  total : tallied p.calls.entries = p.totalCalls

namespace Profile

variable {p : Profile} {es : List Event}

theorem counts_nil : Counts {} [] where
  statements := rfl
  totalCalls := rfl
  functionsMade := rfl
  outerLoads := rfl
  depth_le _ _ called := absurd called List.not_mem_nil
  depth_reached := .inr ⟨rfl, fun _ _ => List.not_mem_nil⟩
  calls _ := OrderedMap.find?_empty _
  total := rfl

theorem Counts.getD_find? (counts : p.Counts es) (name : String) : (p.calls.find? name).getD 0 = callsOf name es := by
  rw [counts.calls]
  split
  · rename_i never
    exact never.symm
  · rfl

theorem callsOf_append_enter (x name : String) (depth : Nat) :
    callsOf x (es ++ [.enter name depth]) = callsOf x es + if x = name then 1 else 0 := by
  by_cases same : x = name
  · simp [callsOf, Event.entered?, same]
  · have other : name ≠ x := fun h => same h.symm
    simp [callsOf, Event.entered?, same, other]

/-- A call adds one to the count of its function and to the number of calls, and it may be deeper than all others. -/
theorem Counts.observe_enter (counts : p.Counts es) (name : String) (depth : Nat) :
    (p.observe (.enter name depth)).Counts (es ++ [.enter name depth]) where
  statements := by simpa [report, observe, Event.isStatement] using counts.statements
  totalCalls := by simpa [report, observe, Event.isEnter] using counts.totalCalls
  functionsMade := by simpa [report, observe, Event.isMakeFunction] using counts.functionsMade
  outerLoads := by simpa [report, observe, Event.isOuterLoad] using counts.outerLoads
  depth_le x d called := by
    rcases List.mem_append.1 called with earlier | now
    · exact Nat.le_trans (counts.depth_le x d earlier) (Nat.le_max_left _ _)
    · cases List.mem_singleton.1 now
      exact Nat.le_max_right _ _
  depth_reached := by
    have deepest : (p.observe (.enter name depth)).report.maxDepth = max p.report.maxDepth depth := rfl
    rw [deepest]
    refine .inl ?_
    by_cases deeper : p.report.maxDepth ≤ depth
    · exact ⟨name, by simp [Nat.max_eq_right deeper]⟩
    · have greatest : max p.report.maxDepth depth = p.report.maxDepth := Nat.max_eq_left (by omega)
      rcases counts.depth_reached with ⟨x, called⟩ | ⟨zero, -⟩
      · exact ⟨x, by simp [greatest, called]⟩
      · omega
  calls x := by
    rw [callsOf_append_enter]
    simp only [observe, OrderedMap.find?_insert, counts.getD_find?, counts.calls x]
    by_cases same : x = name
    · simp [same]
    · simp [same]
  total := by
    simp only [observe]
    rw [OrderedMap.entries_insert, OrderedMap.find?_eq, tallied_put, counts.total]

/-- All other events leave alone what is known of calls. -/
theorem Counts.observe_other (counts : p.Counts es) {e : Event} (other : ∀ name depth, e ≠ .enter name depth) :
    (p.observe e).Counts (es ++ [e]) := by
  have calls_eq (name : String) : callsOf name (es ++ [e]) = callsOf name es := by
    cases e with
    | enter name depth => exact absurd rfl (other name depth)
    | _ => simp [callsOf, Event.entered?]
  have mem_iff (name : String) (depth : Nat) : .enter name depth ∈ es ++ [e] ↔ .enter name depth ∈ es := by
    have distinct : Event.enter name depth ≠ e := fun same => other name depth same.symm
    simp [distinct]
  have same : (p.observe e).calls = p.calls ∧ (p.observe e).totalCalls = p.totalCalls ∧
      (p.observe e).report.maxDepth = p.report.maxDepth := by
    cases e with
    | enter name depth => exact absurd rfl (other name depth)
    | _ => exact ⟨rfl, rfl, rfl⟩
  obtain ⟨calls, total, depth⟩ := same
  refine ⟨⟨?_, ?_, ?_, ?_, ?_, ?_⟩, ?_, by rw [calls, total, counts.total]⟩
  · cases e <;> simpa [report, observe, Event.isStatement] using counts.statements
  · cases e with
    | enter x d => exact absurd rfl (other x d)
    | _ => simpa [report, observe, Event.isEnter] using counts.totalCalls
  · cases e <;> simpa [report, observe, Event.isMakeFunction] using counts.functionsMade
  · cases e <;> simpa [report, observe, Event.isOuterLoad] using counts.outerLoads
  · intro name d called
    rw [depth]
    exact counts.depth_le name d ((mem_iff name d).1 called)
  · simpa only [depth, mem_iff] using counts.depth_reached
  · intro name
    rw [calls, calls_eq, counts.calls]

theorem Counts.observe (counts : p.Counts es) (e : Event) : (p.observe e).Counts (es ++ [e]) := by
  cases e with
  | enter name depth => exact counts.observe_enter name depth
  | _ => exact counts.observe_other fun _ _ => Event.noConfusion

theorem Counts.foldl_observe (counts : p.Counts es) (later : List Event) :
    (later.foldl Profile.observe p).Counts (es ++ later) := by
  induction later generalizing p es with
  | nil => simpa using counts
  | cons e later ih => simpa using ih (counts.observe e)

/-- The report on counts that are right says what the events say. -/
theorem Counts.summarizes (counts : p.Counts es) : p.report.Summarizes es := by
  have perm : p.report.callCounts.Perm p.calls.entries := List.mergeSort_perm _ _
  have once : (p.report.callCounts.map Prod.fst).Nodup := (perm.map Prod.fst).nodup_iff.2 p.calls.nodup_keys
  refine ⟨counts.toTotals, fun name n => ?_, once, precedes_of_ordered (ordered_mergeSort _) once, ?_⟩
  · rw [perm.mem_iff, ← OrderedMap.find?_eq_some_iff, counts.calls]
    by_cases never : callsOf name es = 0
    · simp only [never, if_true, reduceCtorEq, false_iff]
      omega
    · simp only [never, if_false, Option.some.injEq]
      omega
  · exact (tallied_perm perm).trans counts.total

end Profile

/-- For all events in a row, the report on a profile says what the events say that a recorder without a limit has kept,
and no other report does. It comes out the same in whichever order the counts of the functions are listed. -/
theorem profile_agrees_with_trace (es : List Event) :
    ∃ p events, (Tracer.profiling {}).observeAll es = .profiling p ∧
      Tracer.recorder.observeAll es = .recording none events ∧
      p.report.Summarizes events.toList ∧ (∀ r : Report, r.Summarizes events.toList → r = p.report) ∧
      ∀ counts : List (String × Nat), counts.Perm p.calls.entries →
        counts.mergeSort Profile.before = p.report.callCounts := by
  have counts : (es.foldl Profile.observe {}).Counts es := Profile.counts_nil.foldl_observe es
  have summarizes := counts.summarizes
  exact ⟨_, es.toArray, Tracer.observeAll_eq .profiling Profile.observe (fun _ _ => rfl) {} es,
    Tracer.observeAll_recording [] es, summarizes, fun r sum => sum.unique summarizes,
    fun _ perm => Profile.mergeSort_eq perm⟩

end Scriptlet.Trace
