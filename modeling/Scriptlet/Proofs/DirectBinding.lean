import Scriptlet.Proofs.Code.DefaultPlaces
import Scriptlet.Proofs.Code.ParamLists
import Scriptlet.Proofs.Data.Lists

/-!
# The direct way of binding

Positional arguments for positional parameters are bound without filling slots. This gives what the general way
gives, results and refusals alike.
-/

namespace Scriptlet.Code.Signature

open Call (Args Filling)

variable {s : Signature} {callee : String} {defaults given : List Value}

/-- The value of a parameter: its argument or its default. -/
def valueOf (defaults : List Value) (e : (String × Option Nat) × Option Value) : Option Value :=
  e.2.or (e.1.2.bind (defaults[·]?))

/-- The named parameters get their arguments or defaults, if the defaults that are needed are there. -/
theorem complete_eq_ok {slots : List (Option Value)} {es : List (String × Value)} :
    s.complete defaults slots = .ok es ↔
      es = ((s.named.zip slots).filterMap fun e => (valueOf defaults e).map (e.1.1, ·)) ∧
        ∀ e ∈ s.named.zip slots, e.2 = none → ∀ k ∈ e.1.2, k < defaults.length := by
  refine Attempt.filterMapM_eq_ok fun e value => ?_
  obtain ⟨⟨x, _ | k⟩, _ | v⟩ := e
  · simp [valueOf, pure, Except.pure, eq_comm]
  · simp [valueOf, pure, Except.pure, eq_comm]
  · by_cases there : k < defaults.length
    · simp [valueOf, Call.defaultAt, there, Bind.bind, Except.bind, pure, Except.pure, eq_comm]
    · simp [valueOf, Call.defaultAt, there, Bind.bind, Except.bind]
  · simp [valueOf, pure, Except.pure, eq_comm]

/-- All named parameters have an argument or a default. -/
theorem settle_of_filled {args : Args} {f : Filling} (filled : s.fill callee args = .ok f)
    (there : ∀ e ∈ s.named.zip f.slots, ∀ k ∈ e.1.2, k < defaults.length) (complete : s.missing f.slots = []) :
    s.settle callee defaults args =
      .ok ((s.named.zip f.slots).filterMap fun e => (valueOf defaults e).map (e.1.1, ·), f.collected.entries) := by
  unfold settle
  rw [filled]
  show (s.complete defaults f.slots >>= fun named => _) = _
  rw [complete_eq_ok.2 ⟨rfl, fun e he _ => there e he⟩, complete]
  rfl

/-- Some named parameters have neither. -/
theorem settle_of_missing {args : Args} {f : Filling} (filled : s.fill callee args = .ok f)
    (there : ∀ e ∈ s.named.zip f.slots, ∀ k ∈ e.1.2, k < defaults.length) (missing : s.missing f.slots ≠ []) :
    s.settle callee defaults args = raise (.missingArguments callee (s.missing f.slots)) := by
  unfold settle
  rw [filled]
  show (s.complete defaults f.slots >>= fun named => _) = _
  rw [complete_eq_ok.2 ⟨rfl, fun e he _ => there e he⟩]
  cases names : s.missing f.slots with
  | nil => exact absurd names missing
  | cons x xs => rfl

/-- The slots of some parameters, of which the first ones have arguments. -/
def slotsFor (xs : List String) (given : List Value) : List (Option Value) :=
  given.map some ++ List.replicate (xs.length - given.length) none

theorem slotsFor_cons_nil (x : String) (xs : List String) : slotsFor (x :: xs) [] = none :: slotsFor xs [] := by
  simp [slotsFor, List.replicate_succ]

theorem slotsFor_cons_cons (x : String) (xs : List String) (v : Value) (given : List Value) :
    slotsFor (x :: xs) (v :: given) = some v :: slotsFor xs given := by
  simp [slotsFor]

/-- A parameter that has neither an argument nor a default. -/
def lacks : (String × Option Nat) × Option Value → Option String
  | ((x, none), none) => some x
  | _ => none

@[simp]
theorem lacks_filled (p : String × Option Nat) (v : Value) : lacks (p, some v) = none := by
  obtain ⟨x, _ | k⟩ := p <;> rfl

@[simp]
theorem lacks_defaulted (x : String) (k : Nat) (slot : Option Value) : lacks ((x, some k), slot) = none := by
  cases slot <;> rfl

@[simp]
theorem lacks_open (x : String) : lacks ((x, none), none) = some x := rfl

theorem missing_eq_lacks (s : Signature) (slots : List (Option Value)) :
    s.missing slots = (s.named.zip slots).filterMap lacks := rfl

/-- The parameters that lack an argument, if the first ones have one. -/
theorem lacks_places (required first : Nat) (xs : List String) (given : List Value) :
    ((places required first xs).zip (slotsFor xs given)).filterMap lacks =
      (xs.take required).drop given.length := by
  induction xs generalizing required first given with
  | nil => simp [places]
  | cons x xs ih =>
    cases required with
    | zero =>
      rw [places_zero_cons]
      cases given with
      | nil =>
        rw [slotsFor_cons_nil]
        simpa using ih 0 (first + 1) []
      | cons v given =>
        rw [slotsFor_cons_cons]
        simpa using ih 0 (first + 1) given
    | succ required =>
      rw [places_succ_cons]
      cases given with
      | nil =>
        rw [slotsFor_cons_nil]
        simpa using ih required first []
      | cons v given =>
        rw [slotsFor_cons_cons]
        simpa using ih required first given

/-- The values of the parameters, if the first ones have arguments and all others have defaults. -/
theorem values_places (required first : Nat) (xs : List String) (given : List Value)
    (enough : required ≤ given.length) :
    ((places required first xs).zip (slotsFor xs given)).filterMap
        (fun e => (valueOf defaults e).map (e.1.1, ·)) =
      xs.zip (given ++ defaults.drop (first + (given.length - required))) := by
  induction xs generalizing required first given with
  | nil => simp [places]
  | cons x xs ih =>
    cases given with
    | nil =>
      obtain rfl : required = 0 := Nat.le_zero.1 enough
      have rest := ih 0 (first + 1) [] (Nat.le_refl 0)
      rw [places_zero_cons, slotsFor_cons_nil, List.zip_cons_cons, List.filterMap_cons, rest]
      by_cases there : first < defaults.length
      · simp only [valueOf, Option.bind_some, Option.none_or, List.getElem?_eq_getElem there, Option.map_some,
          List.length_nil, Nat.sub_self, Nat.add_zero, List.nil_append]
        rw [List.drop_eq_getElem_cons there, List.zip_cons_cons]
      · have none_left : defaults.drop first = [] := List.drop_eq_nil_of_le (Nat.le_of_not_lt there)
        have none_later : defaults.drop (first + 1) = [] := List.drop_eq_nil_of_le (by omega)
        simp [valueOf, there, none_left, none_later]
    | cons v given =>
      cases required with
      | zero =>
        have rest := ih 0 (first + 1) given (Nat.zero_le _)
        rw [places_zero_cons, slotsFor_cons_cons, List.zip_cons_cons, List.filterMap_cons, rest]
        simp [valueOf, Nat.add_comm, Nat.add_left_comm]
      | succ required =>
        have rest := ih required first given (Nat.le_of_succ_le_succ enough)
        rw [places_succ_cons, slotsFor_cons_cons, List.zip_cons_cons, List.filterMap_cons, rest]
        simp [valueOf]

theorem zip_append_take {α β : Type} {xs : List α} {as bs : List β} {n : Nat}
    (h : xs.length ≤ as.length + n) : xs.zip (as ++ bs.take n) = xs.zip (as ++ bs) := by
  refine List.ext_getElem? fun i => ?_
  grind

/-- Without keywords, the positional arguments are all that fills slots. -/
theorem fill_positional (callee : String) (few : ¬ s.positional.length < given.length)
    (only : s.keywordOnly = []) : s.fill callee ⟨given, []⟩ = .ok ⟨slotsFor s.positional given, .empty⟩ := by
  have all : given.take s.positional.length = given := List.take_of_length_le (Nat.le_of_not_lt few)
  have length : s.named.length = s.positional.length := by simp [named_eq, only, places]
  simp only [fill, few, decide_false, Bool.and_false, Bool.false_eq_true, if_false, List.foldlM_nil, all,
    Filling.start, length]
  rfl

/-- The general way, for positional arguments of positional parameters. -/
theorem settle_positional (only : s.onlyPositional) (enough : s.defaulted ≤ defaults.length) (callee : String)
    (given : List Value) :
    s.settle callee defaults ⟨given, []⟩ = (s.bindPositional callee defaults given).map (·, []) := by
  simp only [onlyPositional, Bool.and_eq_true, List.isEmpty_iff, Option.isNone_iff_eq_none] at only
  obtain ⟨⟨rest, keywordOnly⟩, -⟩ := only
  have named : s.named = places s.requiredCount 0 s.positional := by simp [named_eq, keywordOnly]
  have counts : s.requiredCount ≤ s.positional.length ∧ s.positional.length ≤ s.requiredCount + s.defaulted := by
    unfold requiredCount
    omega
  by_cases many : s.positional.length < given.length
  · simp only [settle, fill, bindPositional, rest, many, Option.isNone_none, decide_true, Bool.and_self, if_true]
    rfl
  have filled := fill_positional callee many keywordOnly
  have there : ∀ e ∈ s.named.zip (slotsFor s.positional given), ∀ k ∈ e.1.2, k < defaults.length := by
    intro e he k hk
    have numbered : s.Numbered := by simp [Numbered, keywordOnly]
    have place := numbered.lt_defaultsCount (List.of_mem_zip he).1 hk
    simp only [defaultsCount, keywordOnly, List.filter_nil, List.length_nil] at place
    omega
  have missing : s.missing (slotsFor s.positional given) =
      (s.positional.take s.requiredCount).drop given.length := by
    rw [missing_eq_lacks, named, lacks_places]
  have there' : ¬ defaults.length < s.defaulted := Nat.not_lt.2 enough
  by_cases few : given.length < s.requiredCount
  · have some_missing : s.missing (slotsFor s.positional given) ≠ [] := by
      intro none_missing
      rw [missing, List.drop_eq_nil_iff, List.length_take] at none_missing
      omega
    rw [settle_of_missing filled there some_missing]
    simp only [bindPositional, many, few, if_false, if_true, missing]
    rfl
  · have none_missing : s.missing (slotsFor s.positional given) = [] := by
      rw [missing, List.drop_eq_nil_iff, List.length_take]
      omega
    have values : s.positional.zip (given ++ defaults.drop (0 + (given.length - s.requiredCount))) =
        s.positional.zip (given ++ (defaults.take s.defaulted).drop (given.length - s.requiredCount)) := by
      rw [Nat.zero_add, List.drop_take]
      exact (zip_append_take (by omega)).symm
    rw [settle_of_filled filled there none_missing, named, values_places _ _ _ _ (Nat.le_of_not_lt few), values]
    simp only [bindPositional, many, few, there', if_false]
    rfl

/-- For positional arguments of positional parameters the two ways of binding are the same. -/
theorem bindFully_eq_bindPositional (only : s.onlyPositional) (enough : s.defaulted ≤ defaults.length) :
    s.bindFully callee defaults ⟨given, []⟩ =
      Heap.inspect fun _ => s.bindPositional callee defaults given := by
  have settled := settle_positional only enough callee given
  simp only [onlyPositional, Bool.and_eq_true, Option.isNone_iff_eq_none] at only
  obtain ⟨⟨rest, -⟩, keywords⟩ := only
  funext h
  unfold bindFully collectRest collectKeywords Heap.inspect
  rw [settled]
  cases s.bindPositional callee defaults given with
  | error f => rfl
  | ok bindings =>
    rw [rest, keywords]
    show EStateM.Result.ok
      ((bindings.splitAt s.positional.length).1 ++ [] ++ (bindings.splitAt s.positional.length).2 ++ []) h = _
    rw [List.splitAt_eq, List.append_nil, List.append_nil, List.take_append_drop]

/-- The direct way raises an exception or gives each parameter its argument or else its default. It never looks beyond
the end of a list. -/
theorem bindPositional_cases (enough : s.defaulted ≤ defaults.length) (callee : String) (given : List Value) :
    (∃ cause, s.bindPositional callee defaults given = raise cause) ∨
    ∃ bound, s.bindPositional callee defaults given = .ok bound ∧ bound.map Prod.fst = s.positional ∧
      ∀ i x v, bound[i]? = some (x, v) → given[i]?.or defaults[i - s.requiredCount]? = some v := by
  unfold bindPositional
  by_cases many : s.positional.length < given.length
  · exact .inl ⟨_, if_pos many⟩
  by_cases few : given.length < s.requiredCount
  · exact .inl ⟨_, (if_neg many).trans (if_pos few)⟩
  refine .inr ⟨_, (if_neg many).trans ((if_neg few).trans (if_neg (Nat.not_lt.2 enough))), ?_, ?_⟩
  · have counts : s.positional.length ≤ s.requiredCount + s.defaulted := by
      unfold requiredCount
      omega
    apply List.map_fst_zip
    rw [List.length_append, List.length_drop, List.length_take]
    omega
  · intro i x v found
    obtain ⟨-, value⟩ := List.getElem?_zip_eq_some.1 found
    by_cases argument : i < given.length
    · rw [List.getElem?_append_left argument] at value
      rw [value, Option.some_or]
    · have place : given.length - s.requiredCount + (i - given.length) = i - s.requiredCount := by omega
      rw [List.getElem?_append_right (Nat.le_of_not_lt argument), List.getElem?_drop, place, List.getElem?_take] at value
      rw [List.getElem?_eq_none (Nat.le_of_not_lt argument), Option.none_or]
      split at value
      · exact value
      · cases value

/-- For every signature with positional parameters only, with at least the defaults that it needs, and every list of
positional arguments, the direct way and the general way of binding come to the same, bindings and exceptions alike, and
neither touches the heap. A call goes the direct way. -/
theorem direct_binding_agrees (only : s.onlyPositional) (enough : s.defaulted ≤ defaults.length) (callee : String)
    (given : List Value) (h : Heap) :
    s.bind callee defaults ⟨given, []⟩ h = Heap.inspect (fun _ => s.bindPositional callee defaults given) h ∧
    s.bindFully callee defaults ⟨given, []⟩ h = Heap.inspect (fun _ => s.bindPositional callee defaults given) h ∧
    ((∃ cause, s.bindPositional callee defaults given = raise cause) ∨
      ∃ bound, s.bindPositional callee defaults given = .ok bound ∧ bound.map Prod.fst = s.positional ∧
        ∀ i x v, bound[i]? = some (x, v) → given[i]?.or defaults[i - s.requiredCount]? = some v) := by
  refine ⟨?_, congrFun (bindFully_eq_bindPositional only enough) h, bindPositional_cases enough callee given⟩
  have direct : (s.onlyPositional && ([] : List (String × Value)).isEmpty) = true := Bool.and_eq_true_iff.2 ⟨only, rfl⟩
  unfold bind
  rw [if_pos direct]

/-- Three parameters of which the last two have defaults, called with too few, with enough and with too many
arguments. -/
theorem direct_binding_agrees_trailing :
    let s : Signature := { positional := ["a", "b", "c"], defaulted := 2 }
    let h := Heap.empty (.depthOnly none)
    s.onlyPositional ∧ s.defaulted ≤ [Value.bool false, .bool true].length ∧
    s.bindFully "f" [.bool false, .bool true] ⟨[], []⟩ h = .error (.ofCause (.missingArguments "f" ["a"])) h ∧
    s.bindFully "f" [.bool false, .bool true] ⟨[.none, .none], []⟩ h =
      .ok [("a", .none), ("b", .none), ("c", .bool true)] h ∧
    s.bindFully "f" [.bool false, .bool true] ⟨[.none, .none, .none, .none], []⟩ h =
      .error (.ofCause (.tooManyArguments "f" 3 4)) h := by
  intro s h
  have only : s.onlyPositional := rfl
  have enough : s.defaulted ≤ [Value.bool false, .bool true].length := Nat.le_refl 2
  have general (given : List Value) := (direct_binding_agrees only enough "f" given h).2.1
  exact ⟨only, enough, general [], general [.none, .none], general [.none, .none, .none, .none]⟩

end Scriptlet.Code.Signature
