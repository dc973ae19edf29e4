import Scriptlet.Proofs.Code.Scoping

/-!
# Resolution is lexical scoping

Every accepted program comes out with each name in its lexical scope, in the functions that it defines as well as
at module level. Assignments never reach beyond the function they stand in.
-/

namespace Scriptlet.Code.Draft

open Program (BlockScoped ExprScoped)

/-- All assignments of some code, and those of the functions that were added to the table with it, stay where they
stand: the code itself assigns to the module, each function to its own variables. -/
structure StoresInPlace (d : Draft) (needs : List Need) (d' : Draft) : Prop where
  module : ∀ x, .store x ∈ needs → x.scope = .global
  functions : ∀ i f, d.functions.size ≤ i → d'.functions[i]? = some f →
    ∀ x, .store x ∈ f.body.needs → x.scope = .own

variable {d d' : Draft}

theorem storesInPlace_of_resolved {needs : List Need} {new : List Function}
    (h : Resolved d 0 needs new d') : StoresInPlace d needs d' where
  module x hx := (h.allowed _ hx).2
  functions i f hi hf x hx := by
    obtain ⟨hlt, -⟩ := Array.getElem?_eq_some_iff.1 hf
    obtain ⟨n, defined⟩ := h.defined i hi hlt
    cases defined with
    | intro found _ _ _ _ needs =>
      obtain rfl : f = _ := Option.some.inj (hf.symm.trans found)
      simpa using (needs _ hx).2

theorem storesInPlace_of_yields {α : Type} {step : Resolving α} {N : α → List Need} {a : α}
    (hs : Yields 0 [] step N) (h : step d = .ok a d') : StoresInPlace d (N a) d' := by
  have hd := hs (Resolved.start d 0)
  simp only [h] at hd
  obtain ⟨new, hr⟩ := hd
  exact storesInPlace_of_resolved hr

/-- Whatever program or expression is accepted, every name occurrence is resolved by lexical scoping, and no
assignment reaches an enclosing function. -/
theorem resolution_lexical (d : Draft) :
    (∀ program code d', d.resolveProgram program = (.ok code, d') →
      BlockScoped d'.functions [] program code ∧ StoresInPlace d (blockNeeds code) d') ∧
    ∀ e code d', d.resolveExpr e = (.ok code, d') →
      ExprScoped d'.functions [] e code ∧ StoresInPlace d code.needs d' := by
  refine ⟨fun program code d' h => ?_, fun e code d' h => ?_⟩
  · have ran := attempt_eq_ok h
    have hs : Yields (List.length ([] : Scopes)) [] (Program.resolveBlock [] false program)
        fun code => blockNeeds code ++ [] :=
      Program.yields_resolveBlock false program fun _ _ _ hs => by cases hs
    have stores := storesInPlace_of_yields hs ran
    rw [List.append_nil] at stores
    exact ⟨(Program.delivers_resolveBlock [] false program ran).2 (Extends.refl _), stores⟩
  · have ran := attempt_eq_ok h
    have stores := storesInPlace_of_yields (e.yields_resolve []) ran
    rw [List.append_nil] at stores
    exact ⟨(e.delivers_resolve [] ran).2 (Extends.refl _), stores⟩

/-- A function with a default and a tuple of loop targets, in which another one is defined whose default and whose
body use the names of the first. -/
def nestedProgram : List Program.Stmt :=
  [.define "outer" [.required "a", .defaulted "b" (.name "g")]
    [.loop (.tuple [.name "i", .tuple [.name "j"]]) (.name "a") [.augment (.name "b") .add (.name "j")],
      .define "inner" [.rest "more", .defaulted "a" (.name "a")]
        [.giveBack (some (.lambda [.required "x"]
          (.tuple [.name "x", .name "a", .name "more", .name "i", .name "inner", .name "g"])))]]]

theorem resolution_lexical_nestedProgram :
    ∃ code d', ({} : Draft).resolveProgram nestedProgram = (.ok code, d') ∧
      BlockScoped d'.functions [] nestedProgram code ∧ StoresInPlace {} (blockNeeds code) d' ∧
      (d'.functions[0]?).map (·.body) = some (.expr (.tuple [.name ⟨"x", .own⟩, .name ⟨"a", .outer 1⟩,
        .name ⟨"more", .outer 1⟩, .name ⟨"i", .outer 2⟩, .name ⟨"inner", .outer 2⟩,
        .name ⟨"g", .global⟩])) := by
  refine ⟨_, _, rfl, ?_⟩
  obtain ⟨lexical, stores⟩ := (resolution_lexical {}).1 nestedProgram _ _ rfl
  exact ⟨lexical, stores, rfl⟩

end Scriptlet.Code.Draft
