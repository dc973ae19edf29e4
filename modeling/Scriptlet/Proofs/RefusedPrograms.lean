import Scriptlet.Module.Entry
import Scriptlet.Proofs.Code.ReadBack

/-!
# Refused programs

A program or expression that is refused has no effect, wherever in it the defect is: no statement has run, and the
functions that were resolved before the defect was met are gone. Only the words that were met stay known, and they
come after the words that were known before.
-/

namespace Scriptlet

open Code (Lexicon Resolving)
open Fault (Malformed)
open Trace (Tracer)

/-- When more words have been met, a word stands where it stood, and looking it up gives its place. -/
theorem Code.Lexicon.word?_of_prefix {l l' : Lexicon} (later : l.words <+: l'.words) {i : Nat} {w : String}
    (known : l.word? i = some w) : l'.word? i = some w ∧ l'.place? w = some i := by
  obtain ⟨lt, rfl⟩ := List.getElem?_eq_some_iff.1 known
  have stays : l'.words[i]? = some l.words[i] := List.prefix_iff_getElem?.1 later i lt
  obtain ⟨lt', same⟩ := List.getElem?_eq_some_iff.1 stays
  refine ⟨stays, List.idxOf?_eq_some_iff.2 ⟨lt', same, fun j before also => ?_⟩⟩
  have once : j = i := (List.Nodup.getElem_inj_iff l'.nodup_words).1 (also.trans same.symm)
  omega

namespace Module

/-- The second module differs from the first one only in words that were met since. Objects, counters and limits are
parts of the heap, and the table of functions is a part of the library. -/
structure OnlyMeetsWords (m m' : Module) : Prop where
  name : m'.name = m.name
  heap : m'.heap = m.heap
  globals : m'.globals = m.globals
  library : m'.library = m.library
  words : m.store.lexicon.words <+: m'.store.lexicon.words
  /-- A word known before stays at its place, and looking it up still gives this place. -/
  places : ∀ i w, m.store.lexicon.word? i = some w →
    m'.store.lexicon.word? i = some w ∧ m'.store.lexicon.place? w = some i

variable {m m' : Module}

theorem onlyMeetsWords_of_refused {α : Type} {step : Resolving α} (grows : step.Grows) {defect : Malformed}
    (refused : m.resolve (·.attempt step) = (.error defect, m')) : m.OnlyMeetsWords m' := by
  obtain ⟨name, ⟨functions, natives, builtins, methods⟩, ⟨heap, lexicon⟩, globals⟩ := m
  simp only [resolve] at refused
  cases ran : step { lexicon, functions } with
  | ok a d =>
    rw [Code.Draft.attempt_of_ok ran] at refused
    cases refused
  | error e d =>
    obtain ⟨later, left⟩ := Code.Draft.attempt_of_error grows ran
    rw [left] at refused
    cases refused
    exact ⟨rfl, rfl, rfl, rfl, later.words, fun i w => Lexicon.word?_of_prefix later.words⟩

end Module

/-- Whatever state a module is in, a program that is refused, wherever its defect is, is answered with this defect. The
tracer has seen nothing of it, so no statement has run; the heap with all counters, the globals and the table of
functions are as before, and of the words each one known before keeps its place. The same goes for an expression. -/
theorem refused_program_has_no_effect (m : Module) :
    (∀ (tracer : Tracer) program defect, (m.resolve (·.resolveProgram program)).1 = .error defect →
      (m.exec tracer program).answer = raise (.malformed defect) ∧ (m.exec tracer program).tracer = tracer ∧
        m.OnlyMeetsWords (m.exec tracer program).after) ∧
    ∀ e defect, (m.resolve (·.resolveExpr e)).1 = .error defect →
      (m.eval e).answer = raise (.malformed defect) ∧ (m.eval e).tracer = .silent ∧
        m.OnlyMeetsWords (m.eval e).after := by
  refine ⟨fun tracer program defect refused => ?_, fun e defect refused => ?_⟩
  · cases resolved : m.resolve (·.resolveProgram program) with
    | mk result m' =>
      rw [resolved] at refused
      subst refused
      have ran : m.exec tracer program = ⟨raise (.malformed defect), tracer, m'⟩ := by simp only [Module.exec, resolved]
      rw [ran]
      exact ⟨rfl, rfl, Module.onlyMeetsWords_of_refused (Program.grows_resolveBlock [] false program) resolved⟩
  · cases resolved : m.resolve (·.resolveExpr e) with
    | mk result m' =>
      rw [resolved] at refused
      subst refused
      have ran : m.eval e = ⟨raise (.malformed defect), .silent, m'⟩ := by simp only [Module.eval, resolved]
      rw [ran]
      exact ⟨rfl, rfl, Module.onlyMeetsWords_of_refused (e.grows_resolve []) resolved⟩

/-- Its last definition is refused for a jump in the body of a function that is never called, after another definition
in the same body and a function in a default have been resolved. -/
def lateDefectProgram : List Program.Stmt :=
  [.assign (.name "a") (.list []),
    .define "f" [.defaulted "x" (.lambda [] (.name "a"))] [.define "g" [] [.pass], .define "h" [] [.leaveLoop]]]

/-- A metered module that has run a program is given one with a late defect: two functions had gone to its table. -/
theorem refused_program_has_no_effect_late :
    let m := ((Module.create "m" (.start { maxOperations := some 9 })).exec .silent
      [.define "k" [] [.pass], .assign (.name "b") (.dict [])]).after
    (m.library.functions.size = 1 ∧
      ((Program.resolveBlock [] false lateDefectProgram).leaves ⟨m.store.lexicon, m.library.functions⟩).functions.size = 3) ∧
    ∃ defect, (m.resolve (·.resolveProgram lateDefectProgram)).1 = .error defect ∧
      (m.exec .recorder lateDefectProgram).answer = raise (.malformed defect) ∧
      (m.exec .recorder lateDefectProgram).tracer = .recorder ∧
      m.OnlyMeetsWords (m.exec .recorder lateDefectProgram).after := by
  intro m
  have sizes : m.library.functions.size = 1 ∧
      ((Program.resolveBlock [] false lateDefectProgram).leaves ⟨m.store.lexicon, m.library.functions⟩).functions.size = 3 := by
    decide +kernel
  have refused : (m.resolve (·.resolveProgram lateDefectProgram)).1.isOk = false := by decide +kernel
  clear_value m
  cases result : (m.resolve (·.resolveProgram lateDefectProgram)).1 with
  | ok code =>
    rw [result] at refused
    cases refused
  | error defect =>
    exact ⟨sizes, defect, rfl, (refused_program_has_no_effect m).1 .recorder lateDefectProgram defect result⟩

end Scriptlet
