import Scriptlet.Proofs.Code.ReadBack
import Scriptlet.Proofs.LexicalScoping

/-!
# Resolution loses nothing

Code, lexicon and table of functions together still hold the program that was resolved. What the lexicon and the
table held before stays where it was.
-/

namespace Scriptlet.Code.Draft

variable {d d' : Draft}

theorem readBack_of_settles {α : Type} {step : Resolving α} {R : Draft → α → Prop} {a : α}
    (hs : Settles step R) (h : d.attempt step = (.ok a, d')) : R d' a ∧ d.Le d' := by
  obtain ⟨grows, holds⟩ := hs (attempt_eq_ok h)
  exact ⟨holds (.refl d'), grows⟩

/-- Whatever program or expression is accepted, and whatever the lexicon and the table held before, the code that
comes out is read back as exactly this program or expression. The lexicon and the table are continued. -/
theorem resolution_lossless (d : Draft) :
    (∀ program code d', d.resolveProgram program = (.ok code, d') →
      d'.readBackProgram code = some program ∧ d.Le d') ∧
    ∀ e code d', d.resolveExpr e = (.ok code, d') → d'.readBackExpr code = some e ∧ d.Le d' := by
  refine ⟨fun program code d' h => ?_, fun e code d' h => ?_⟩
  · exact readBack_of_settles (Program.settles_resolveBlock [] false program) h
  · exact readBack_of_settles (e.settles_resolve []) h

/-- A draft that already holds a word and a function. -/
def usedDraft : Draft := (({} : Draft).resolveExpr (.lambda [] (.str "a"))).2

/-- A definition with parameters of all kinds; of the keyword-only ones the second has a default, which is itself a
definition. -/
def manyParamsProgram : List Program.Stmt :=
  [.define "f" [.required "a", .defaulted "b" (.str "a"), .bareStar, .required "c",
      .defaulted "d" (.lambda [.rest "xs", .defaulted "y" (.bool true)] (.name "xs")), .keywords "more"]
    [.giveBack (some (.call (.name "d") [.spread (.name "a"), .keyword "y" (.name "c")]))]]

theorem resolution_lossless_manyParams :
    ∃ code d', usedDraft.resolveProgram manyParamsProgram = (.ok code, d') ∧
      d'.readBackProgram code = some manyParamsProgram ∧ usedDraft.Le d' ∧
      (d'.functions[2]?).map (·.signature) = some
        { positional := ["a", "b"], defaulted := 1, keywordOnly := [("c", none), ("d", some 0)],
          keywords := some "more" } := by
  have accepted : (usedDraft.resolveProgram manyParamsProgram).1.isOk = true := by decide +kernel
  have signature : ((usedDraft.resolveProgram manyParamsProgram).2.functions[2]?).map (·.signature) = some
      { positional := ["a", "b"], defaulted := 1, keywordOnly := [("c", none), ("d", some 0)],
        keywords := some "more" } := by decide +kernel
  cases h : usedDraft.resolveProgram manyParamsProgram with
  | mk result d' =>
    rw [h] at accepted signature
    cases result with
    | error e => cases accepted
    | ok code =>
      obtain ⟨back, continued⟩ := (resolution_lossless usedDraft).1 manyParamsProgram code d' h
      exact ⟨code, d', rfl, back, continued, signature⟩

end Scriptlet.Code.Draft
