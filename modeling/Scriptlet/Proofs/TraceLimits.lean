import Scriptlet.Proofs.Tracing.Runs

/-!
# Limits of traces

A recorder with a limit looks at the limit before it keeps an event, a log looks at it after it has written a line. A
recorder keeps the first events, as many as its limit says. A log prints the first lines, as many as its limit says but
at least one, then the notice, and then nothing any more.
-/

namespace Scriptlet.Trace

/-! ## Recorders -/

/-- A recorder with a limit goes on to keep events until it has as many as the limit says. -/
theorem Tracer.observeAll_limited (n : Nat) (kept : Array Event) (es : List Event) :
    (Tracer.recording (some n) kept).observeAll es =
      .recording (some n) (kept ++ (es.take (n - kept.size)).toArray) := by
  induction es generalizing kept with
  | nil => simp [observeAll]
  | cons e es ih =>
    have step : (Tracer.recording (some n) kept).observeAll (e :: es) =
        ((Tracer.recording (some n) kept).observe e).observeAll es := rfl
    by_cases full : n ≤ kept.size
    · have none_left : n - kept.size = 0 := by omega
      have same : (Tracer.recording (some n) kept).observe e = .recording (some n) kept := by simp [observe, full]
      rw [step, same, ih, none_left, List.take_zero, List.take_zero]
    · have some_left : n - kept.size = n - (kept.push e).size + 1 := by
        rw [Array.size_push]
        omega
      have more : (Tracer.recording (some n) kept).observe e = .recording (some n) (kept.push e) := by
        simp [observe, full]
      rw [step, more, ih, some_left, List.take_succ_cons]
      simp

/-! ## Logs -/

namespace Log

/-- The notice that a limit was reached. -/
def limitNotice (n : Nat) : String := s!"--- trace limit reached ({n} lines) ---"

/-- The notice, if the limit allows no line after the next one. -/
def closing (l : Log) : List String :=
  match l.limit with
  | some n => if n ≤ l.lines.size + 1 then [limitNotice n] else []
  | none => []

/-- What a log prints when it is told of an event. -/
def prints (l : Log) (e : Event) : List String :=
  match line? e with
  | some line => if l.stopped then [] else line :: l.closing
  | none => []

/-- What a log prints while it is told of some events in a row. -/
def printed (l : Log) : List Event → List String
  | [] => []
  | e :: es => l.prints e ++ (l.observe e).printed es

variable {l : Log} {e : Event} {line : String}

theorem observe_of_none (silent : line? e = none) : l.observe e = l ∧ l.prints e = [] := by
  simp [observe, prints, silent]

theorem observe_of_stopped (stopped : l.stopped = true) (e : Event) : l.observe e = l ∧ l.prints e = [] := by
  cases written : line? e with
  | none => exact observe_of_none written
  | some line => simp [observe, prints, add, written, stopped]

/-- A log that goes on writes the line of an event, and stops if this was the last one. -/
theorem observe_of_some (going : l.stopped = false) (written : line? e = some line) :
    l.observe e = { l with lines := l.lines.push line, stopped := l.limit.any (· ≤ l.lines.size + 1) } ∧
      l.prints e = line :: l.closing := by
  simp [observe, prints, add, written, going]

/-! ### The text of a log -/

/-- Lines as text. -/
def unlines (lines : List String) : String := String.join (lines.map (· ++ "\n"))

/-- The lines of a log and the notice at their end. -/
def output (l : Log) : List String := l.lines.toList ++ l.notice?.toList

theorem notice?_eq (l : Log) : l.notice? = if l.stopped then l.limit.map limitNotice else none := rfl

theorem output_observe (l : Log) (e : Event) : (l.observe e).output = l.output ++ l.prints e := by
  by_cases stopped : l.stopped = true
  · obtain ⟨same, silent⟩ := observe_of_stopped stopped e
    rw [same, silent, List.append_nil]
  · have going : l.stopped = false := eq_false_of_ne_true stopped
    cases written : line? e with
    | none =>
      obtain ⟨same, silent⟩ := observe_of_none (l := l) written
      rw [same, silent, List.append_nil]
    | some line =>
      obtain ⟨after, prints⟩ := observe_of_some going written
      rw [after, prints]
      cases limited : l.limit with
      | none => simp [output, notice?_eq, closing, limited, going]
      | some n =>
        by_cases reached : n ≤ l.lines.size + 1
        · simp [output, notice?_eq, closing, limited, going, reached]
        · simp [output, notice?_eq, closing, limited, going, reached]

/-- The text of a log is what was printed. -/
theorem text_foldl_observe (es : List Event) : (es.foldl observe l).text = l.text ++ unlines (l.printed es) := by
  have grows : (es.foldl observe l).output = l.output ++ l.printed es := by
    induction es generalizing l with
    | nil => rw [List.foldl_nil, printed, List.append_nil]
    | cons e es ih => rw [List.foldl_cons, ih, output_observe, printed, List.append_assoc]
  have text_eq (l : Log) : l.text = unlines l.output := rfl
  rw [text_eq, text_eq, grows]
  simp [unlines]

/-! ### Lines up to a limit -/

theorem printed_of_stopped (stopped : l.stopped = true) (es : List Event) : l.printed es = [] := by
  induction es with
  | nil => rfl
  | cons e es ih =>
    obtain ⟨same, silent⟩ := observe_of_stopped stopped e
    rw [printed, same, silent, ih, List.append_nil]

/-- Without a limit every line is printed. -/
theorem printed_unlimited (unlimited : l.limit = none) (going : l.stopped = false) (es : List Event) :
    l.printed es = es.filterMap line? := by
  induction es generalizing l with
  | nil => rfl
  | cons e es ih =>
    cases written : line? e with
    | none =>
      obtain ⟨same, silent⟩ := observe_of_none (l := l) written
      rw [printed, same, silent, ih unlimited going, List.filterMap_cons_none written, List.nil_append]
    | some line =>
      obtain ⟨after, prints⟩ := observe_of_some going written
      rw [printed, after, prints, ih (by exact unlimited) (by simp [unlimited]), List.filterMap_cons_some written]
      simp [closing, unlimited]

/-- The first of some lines, and the notice if there are as many. -/
def cutOff (n room : Nat) (lines : List String) : List String :=
  lines.take room ++ if room ≤ lines.length then [limitNotice n] else []

theorem cutOff_cons (n room : Nat) (line : String) (lines : List String) :
    cutOff n (room + 1) (line :: lines) = line :: cutOff n room lines := by
  simp [cutOff]

/-- A log that goes on prints the first of the lines to come, as many as are left of the limit but at least one. -/
theorem printed_limited {n : Nat} (limited : l.limit = some n) (going : l.stopped = false) (es : List Event) :
    l.printed es = cutOff n (max (n - l.lines.size) 1) (es.filterMap line?) := by
  induction es generalizing l with
  | nil => simp [printed, cutOff]
  | cons e es ih =>
    cases written : line? e with
    | none =>
      obtain ⟨same, silent⟩ := observe_of_none (l := l) written
      rw [printed, same, silent, ih limited going, List.filterMap_cons_none written, List.nil_append]
    | some line =>
      obtain ⟨after, prints⟩ := observe_of_some going written
      rw [printed, after, prints, List.filterMap_cons_some written]
      by_cases reached : n ≤ l.lines.size + 1
      · -- This line is the last one, be it that the limit was zero.
        have room : max (n - l.lines.size) 1 = 0 + 1 := by omega
        rw [printed_of_stopped (by simp [limited, reached]), room, cutOff_cons]
        simp [closing, limited, reached, cutOff]
      · have room : max (n - l.lines.size) 1 = max (n - (l.lines.push line).size) 1 + 1 := by
          rw [Array.size_push]
          omega
        have goes_on : l.limit.any (· ≤ l.lines.size + 1) = false := by simpa [limited] using reached
        rw [ih (by exact limited) goes_on, room, cutOff_cons]
        simp [closing, limited, reached]

theorem head?_append {s : String} {c : Char} (first : s.toList.head? = some c) (t : String) :
    (s ++ t).toList.head? = some c := by
  simp [first]

/-- Lines begin with a space. -/
theorem head?_of_line? (written : line? e = some line) : line.toList.head? = some ' ' := by
  have spaces (k : Nat) (s : String) (first : s.toList.head? = some ' ') :
      (Text.spaces k ++ s).toList.head? = some ' ' := by
    cases k <;> simp [Text.spaces, first, List.replicate_succ]
  cases e with
  | enter name depth =>
    cases written
    exact spaces _ _ (head?_append (head?_append (head?_append rfl _) _) _)
  | leave name depth =>
    cases written
    exact spaces _ _ (head?_append (head?_append (head?_append rfl _) _) _)
  | makeFunction name defaults captures =>
    cases written
    exact head?_append (head?_append (head?_append (head?_append (head?_append rfl _) _) _) _) _
  | _ => cases written

theorem limitNotice_ne_line (n : Nat) (written : line? e = some line) : limitNotice n ≠ line := by
  intro same
  have first : (limitNotice n).toList.head? = some '-' := head?_append (head?_append rfl _) _
  rw [same, head?_of_line? written] at first
  exact absurd first (by decide)

end Log

/-- A recorder with a limit has the first of the events that one without a limit has, as many as the limit says. The
lines that a log with a limit prints are the first of those that one without a limit prints, as many as the limit says
but at least one. If there are that many it prints the notice after them, once and for the last time. -/
theorem limits_cut_traces (n : Nat) (es : List Event) :
    let limited : Log := { limit := some n }
    let lines := Log.printed {} es
    (∃ kept all, (Tracer.recording (some n) #[]).observeAll es = .recording (some n) kept ∧
      Tracer.recorder.observeAll es = .recording none all ∧ kept.toList = all.toList.take n) ∧
    (∃ log full, (Tracer.printing limited).observeAll es = .printing log ∧
      (Tracer.printing {}).observeAll es = .printing full ∧
      log.text = Log.unlines (limited.printed es) ∧ full.text = Log.unlines lines) ∧
    (limited.printed es = lines.take (max n 1) ++ if max n 1 ≤ lines.length then [Log.limitNotice n] else []) ∧
    Log.limitNotice n ∉ lines := by
  intro limited lines
  have unlimited : lines = es.filterMap Log.line? := Log.printed_unlimited rfl rfl es
  have blank (limit : Option Nat) : ({ limit } : Log).text = "" := rfl
  have logged := Tracer.observeAll_eq .printing Log.observe fun _ _ => rfl
  refine ⟨⟨_, es.toArray, Tracer.observeAll_limited n #[] es, Tracer.observeAll_recording [] es, by simp⟩,
    ⟨_, _, logged limited es, logged {} es, ?_, ?_⟩, ?_, ?_⟩
  · rw [Log.text_foldl_observe, blank, String.empty_append]
  · rw [Log.text_foldl_observe, blank, String.empty_append]
  · rw [unlimited]
    exact Log.printed_limited rfl rfl es
  · intro listed
    rw [unlimited] at listed
    obtain ⟨e, -, written⟩ := List.mem_filterMap.1 listed
    exact Log.limitNotice_ne_line n written rfl

/-- A log with the limit zero prints a line that is not among the first zero lines. -/
theorem zero_limit_prints_line :
    let limited : Log := { limit := some 0 }
    (limited.printed [.enter "f" 1]).filter (· ≠ Log.limitNotice 0) ≠ (Log.printed {} [.enter "f" 1]).take 0 := by
  decide +kernel

end Scriptlet.Trace
