import Mathlib.Data.List.Basic
import Scriptlet.Trace.Event

/-!
# Brackets in traces

The events that a call is entered and left are brackets around the events of the call. What well bracketed means
is said by the calls that are open at each event: if every event fits the calls that are open before it, and none
is open at the end, then the brackets match in exactly one way.
-/

namespace Scriptlet.Trace

variable {es : List Event} {limit : Nat}

namespace Event

/-- The calls that are open after an event, the innermost first. -/
def after (opens : List String) : Event → List String
  | .enter name _ => name :: opens
  | .leave .. => opens.tail
  | _ => opens

/-- Whether the event says that a call is entered or left. -/
def isBracket : Event → Bool
  | .enter .. => true
  | .leave .. => true
  | _ => false

theorem after_of_not_isBracket {e : Event} (h : e.isBracket = false) (opens : List String) : e.after opens = opens := by
  cases e with
  | enter name depth => cases h
  | leave name depth => cases h
  | _ => rfl

/-- The event fits the calls that are open before it: a statement tells how many there are, a call that is
entered how many there are with it and no more than the limit, and a call that is left is the innermost one and
tells how many are still open. -/
def Fits (limit : Nat) (opens : List String) : Event → Prop
  | .statement _ depth => depth = opens.length
  | .enter _ depth => depth = opens.length + 1 ∧ depth ≤ limit
  | .leave name depth => ∃ outer, opens = name :: outer ∧ depth = outer.length
  | _ => True

end Event

/-- The calls that are open after some events, if those in `opens` were open before. -/
def openAfter (opens : List String) (events : List Event) : List String :=
  events.foldl Event.after opens

/-- The calls that were entered and not left in some events, the innermost first. -/
def openCalls (events : List Event) : List String := openAfter [] events

@[simp]
theorem openAfter_nil (opens : List String) : openAfter opens [] = opens := rfl

@[simp]
theorem openAfter_cons (opens : List String) (e : Event) (es : List Event) :
    openAfter opens (e :: es) = openAfter (e.after opens) es := rfl

@[simp]
theorem openAfter_append (opens : List String) (es es' : List Event) :
    openAfter opens (es ++ es') = openAfter (openAfter opens es) es' :=
  List.foldl_append

/-- A sequence of events in which each call that is entered is left by an event of the same name, with a sequence
of the same kind in between. -/
inductive Balanced : List Event → Prop where
  | nil : Balanced []
  | cons {e : Event} {rest : List Event} (he : e.isBracket = false) (hrest : Balanced rest) :
      Balanced (e :: rest)
  | call {name : String} {depth depth' : Nat} {body rest : List Event} (hbody : Balanced body)
      (hrest : Balanced rest) : Balanced (.enter name depth :: (body ++ .leave name depth' :: rest))

/-- A trace is well bracketed. -/
structure WellBracketed (limit : Nat) (events : List Event) : Prop where
  balanced : Balanced events
  /-- Each call that is entered is left by exactly one event, which has its name and comes after what the call
  does. -/
  matched : ∀ before name depth after, events = before ++ .enter name depth :: after →
    ∃! split : List Event × List Event, Balanced split.1 ∧
      after = split.1 ++ .leave name (depth - 1) :: split.2
  /-- Each event tells the right number of open calls, and no call is entered beyond the limit. -/
  fits : ∀ before e after, events = before ++ e :: after → e.Fits limit (openCalls before)
  closed : openCalls events = []

/-! ## Balanced sequences -/

/-- What is open after a balanced sequence is what was open before. -/
theorem Balanced.openAfter_eq (h : Balanced es) (opens : List String) : openAfter opens es = opens := by
  induction h generalizing opens with
  | nil => rfl
  | cons he hrest ih =>
    rw [openAfter_cons, Event.after_of_not_isBracket he]
    exact ih opens
  | @call name depth depth' body rest hbody hrest ihbody ihrest =>
    rw [openAfter_cons, openAfter_append, openAfter_cons]
    show openAfter (openAfter (name :: opens) body).tail rest = opens
    rw [ihbody, List.tail_cons]
    exact ihrest opens

/-- In the course of a balanced sequence, the calls that were open before stay open. -/
theorem Balanced.openAfter_take (h : Balanced es) (opens : List String) (n : Nat) :
    ∃ more, openAfter opens (es.take n) = more ++ opens := by
  induction h generalizing opens n with
  | nil => exact ⟨[], by simp⟩
  | @cons e rest he hrest ih =>
    cases n with
    | zero => exact ⟨[], rfl⟩
    | succ n =>
      rw [List.take_succ_cons, openAfter_cons, Event.after_of_not_isBracket he]
      exact ih opens n
  | @call name depth depth' body rest hbody hrest ihbody ihrest =>
    cases n with
    | zero => exact ⟨[], rfl⟩
    | succ n =>
      rw [List.take_succ_cons, openAfter_cons, List.take_append, openAfter_append]
      rcases Nat.lt_or_ge body.length n with beyond | inside
      · -- The body is over, so the call was the innermost open one when it was left.
        obtain ⟨k, hk⟩ : ∃ k, n - body.length = k + 1 := ⟨n - body.length - 1, by omega⟩
        rw [hk, List.take_of_length_le (by omega), hbody.openAfter_eq, List.take_succ_cons,
          openAfter_cons]
        exact ihrest opens k
      · -- The call itself is still open.
        obtain ⟨more, hmore⟩ := ihbody (name :: opens) n
        have nothing_more : n - body.length = 0 := by omega
        refine ⟨more ++ [name], ?_⟩
        rw [nothing_more, List.take_zero, openAfter_nil, List.append_assoc]
        exact hmore

/-- Of two ways to split off what a call does, neither is longer. -/
theorem Balanced.length_le_of_append_leave {body body' rest rest' : List Event} {name name' : String}
    {depth depth' : Nat} (h : Balanced body) (h' : Balanced body')
    (heq : body ++ .leave name depth :: rest = body' ++ .leave name' depth' :: rest') : body.length ≤ body'.length := by
  by_contra longer
  -- Then the second body and the event after it are the beginning of the first body.
  have beginning : body.take (body'.length + 1) = body' ++ [.leave name' depth'] := by
    have inside : (body ++ .leave name depth :: rest).take (body'.length + 1) =
        body.take (body'.length + 1) := List.take_append_of_le_length (by omega)
    rw [← inside, heq, List.take_append, List.take_of_length_le (by omega), Nat.add_sub_cancel_left]
    rfl
  obtain ⟨more, hmore⟩ := h.openAfter_take [name'] (body'.length + 1)
  rw [beginning, openAfter_append, h'.openAfter_eq] at hmore
  have lengths := congrArg List.length hmore
  rw [List.length_append] at lengths
  simp [Event.after] at lengths

/-! ## Fitting events -/

/-- Each event fits the calls that are open before it, if those in `opens` are open at the start. -/
def FitsFrom (limit : Nat) : List String → List Event → Prop
  | _, [] => True
  | opens, e :: es => e.Fits limit opens ∧ FitsFrom limit (e.after opens) es

theorem fitsFrom_append {opens : List String} {es' : List Event} :
    FitsFrom limit opens (es ++ es') ↔
      FitsFrom limit opens es ∧ FitsFrom limit (openAfter opens es) es' := by
  induction es generalizing opens with
  | nil => simp [FitsFrom]
  | cons e es ih => simp only [List.cons_append, FitsFrom, ih, openAfter_cons, and_assoc]

/-- Once a call has been entered, and if it is over at the end, what comes is what the call does, the event that it
is left, and the rest. -/
theorem FitsFrom.split_leave {name : String} {outer : List String}
    (h : FitsFrom limit (name :: outer) es) (hend : openAfter (name :: outer) es = []) :
    ∃ body rest, es = body ++ .leave name outer.length :: rest ∧ Balanced body ∧
      FitsFrom limit outer rest ∧ openAfter outer rest = [] := by
  -- A call in the body is split off first, so the induction is on the length.
  induction hn : es.length using Nat.strongRecOn generalizing name outer es with
  | _ n ih =>
    cases es with
    | nil => cases hend
    | cons e es =>
      rw [List.length_cons] at hn
      obtain ⟨he, hes⟩ := h
      rw [openAfter_cons] at hend
      cases e with
      | enter inner depth =>
        obtain ⟨body₁, rest₁, rfl, hbody₁, hrest₁, hend₁⟩ := ih es.length (by omega) hes hend rfl
        rw [List.length_append, List.length_cons] at hn
        obtain ⟨body₂, rest₂, rfl, hbody₂, hrest₂, hend₂⟩ := ih rest₁.length (by omega) hrest₁ hend₁ rfl
        refine ⟨.enter inner depth :: (body₁ ++ .leave inner (outer.length + 1) :: body₂), rest₂, ?_,
          .call hbody₁ hbody₂, hrest₂, hend₂⟩
        simp
      | leave left depth =>
        obtain ⟨outer', hopen, hdepth⟩ := he
        obtain ⟨rfl, rfl⟩ := List.cons.inj hopen
        exact ⟨[], es, by rw [hdepth]; rfl, .nil, hes, hend⟩
      | statement kind depth =>
        obtain ⟨body, rest, rfl, hbody, hrest, hend'⟩ := ih es.length (by omega) hes hend rfl
        exact ⟨_ :: body, rest, rfl, .cons rfl hbody, hrest, hend'⟩
      | makeFunction made defaults captures =>
        obtain ⟨body, rest, rfl, hbody, hrest, hend'⟩ := ih es.length (by omega) hes hend rfl
        exact ⟨_ :: body, rest, rfl, .cons rfl hbody, hrest, hend'⟩
      | outerLoad x levels =>
        obtain ⟨body, rest, rfl, hbody, hrest, hend'⟩ := ih es.length (by omega) hes hend rfl
        exact ⟨_ :: body, rest, rfl, .cons rfl hbody, hrest, hend'⟩

theorem FitsFrom.balanced (h : FitsFrom limit [] es) (hend : openCalls es = []) : Balanced es := by
  induction hn : es.length using Nat.strongRecOn generalizing es with
  | _ n ih =>
    cases es with
    | nil => exact .nil
    | cons e es =>
      rw [List.length_cons] at hn
      obtain ⟨he, hes⟩ := h
      cases e with
      | enter name depth =>
        obtain ⟨body, rest, rfl, hbody, hrest, hend'⟩ := hes.split_leave hend
        rw [List.length_append, List.length_cons] at hn
        exact .call hbody (ih rest.length (by omega) hrest hend' rfl)
      | leave name depth =>
        obtain ⟨outer, hopen, -⟩ := he
        cases hopen
      | statement kind depth => exact .cons rfl (ih es.length (by omega) hes hend rfl)
      | makeFunction made defaults captures => exact .cons rfl (ih es.length (by omega) hes hend rfl)
      | outerLoad x levels => exact .cons rfl (ih es.length (by omega) hes hend rfl)

/-- It is enough that every event fits and no call is open at the end. -/
theorem FitsFrom.wellBracketed {events : List Event} (h : FitsFrom limit [] events)
    (closed : openCalls events = []) : WellBracketed limit events where
  balanced := h.balanced closed
  closed := closed
  fits := by
    rintro before e after rfl
    exact (fitsFrom_append.1 h).2.1
  matched := by
    rintro before name depth after rfl
    obtain ⟨-, ⟨hdepth, -⟩, hafter⟩ := fitsFrom_append.1 h
    rw [openCalls, openAfter_append, openAfter_cons] at closed
    obtain ⟨body, rest, rfl, hbody, -, -⟩ := hafter.split_leave closed
    have told : depth - 1 = (openAfter [] before).length := by omega
    refine ⟨(body, rest), ⟨hbody, by rw [told]⟩, ?_⟩
    rintro ⟨body', rest'⟩ ⟨hbody', heq⟩
    have lengths : body.length = body'.length :=
      Nat.le_antisymm (hbody.length_le_of_append_leave hbody' heq) (hbody'.length_le_of_append_leave hbody heq.symm)
    obtain ⟨rfl, tails⟩ := List.append_inj heq lengths
    rw [(List.cons.inj tails).2]

/-! ## Leaving all calls -/

/-- The events when all open calls are left, from the innermost to the outermost. -/
def leaving : List String → List Event
  | [] => []
  | name :: outer => .leave name outer.length :: leaving outer

end Scriptlet.Trace
