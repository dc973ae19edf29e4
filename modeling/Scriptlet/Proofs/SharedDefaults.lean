import Scriptlet.Proofs.DefaultBinding
import Scriptlet.Proofs.LexicalScoping
import Scriptlet.Proofs.Watch.Session

/-!
# Defaults are shared by all calls

To execute a definition is to evaluate its defaults one after the other where the definition stands, those of the
positional parameters first, and to make a function value of the results. Every call of that function value binds
a parameter that it gives no argument for to the value that the default of this very parameter had then.
-/

namespace Scriptlet

open Budget (Meter)
open Call (Args)
open Code (Extends Function ParamGroups)
open Program (BlockScoped DefaultsScoped Definition ExprScoped Param StmtScoped Supplied paramDefaults)

variable {args : Args}

/-! ## The execution of a definition -/

/-- Expressions are evaluated one after the other, each of them once. -/
inductive Engine.Evaluates {σ : Type} (k : Engine σ) : List Code.Expr → σ → List Value → σ → Prop where
  | nil {s : σ} : Evaluates k [] s [] s
  | cons {e : Code.Expr} {es : List Code.Expr} {v : Value} {vs : List Value} {s s₁ s' : σ}
    (head : k.eval e s = .ok v s₁) (tail : Evaluates k es s₁ vs s') :
    Evaluates k (e :: es) s (v :: vs) s'

theorem Engine.evaluates_of_evalAll {σ : Type} {k : Engine σ} {es : List Code.Expr} {vs : List Value}
    {s s' : σ} (h : k.evalAll es s = .ok vs s') : k.Evaluates es s vs s' := by
  induction es generalizing s vs with
  | nil =>
    rw [evalAll] at h
    cases h
    exact .nil
  | cons e es ih =>
    rw [evalAll] at h
    obtain ⟨v, s₁, head, h⟩ := bind_eq_ok.1 h
    obtain ⟨vs, s₂, tail, h⟩ := bind_eq_ok.1 h
    cases h
    exact .cons head (ih tail)

/-- The code of an activation evaluates defaults and makes the function value at an address of them. -/
def Activation.Makes (act : Activation) (L : Lineage) (call : Value → Args → Watched Value)
    (id : FunctionId) (es : List Code.Expr) (w : Watch) (a : Address) (vs : List Value) (w' : Watch) : Prop :=
  ∃ w₁, (act.watched L call).Evaluates es w vs w₁ ∧
    (act.watched L call).function id vs w₁ = .ok (.ref a) w' ∧
    w'.history.journal = .made a L id vs :: w₁.history.journal

section execution

variable {act : Activation} {L : Lineage} {call : Value → Args → Watched Value} {id : FunctionId}
  {es : List Code.Expr} {w w' : Watch} {v : Value} {vs : List Value}

theorem Run.allocate_eq_ok {c : Heap.Cell} {m m' : Machine} (h : Run.allocate c m = .ok v m') : ∃ a, v = .ref a := by
  rw [allocate_eq] at h
  obtain ⟨a, m₁, -, h⟩ := bind_eq_ok.1 h
  cases h
  exact ⟨a, rfl⟩

theorem Activation.makeFunction_eq_ok {m m' : Machine} (h : act.makeFunction id vs m = .ok v m') : ∃ a, v = .ref a := by
  unfold makeFunction at h
  obtain ⟨f, m₁, -, h⟩ := bind_eq_ok.1 h
  obtain ⟨_, m₂, -, h⟩ := bind_eq_ok.1 h
  split at h
  · obtain ⟨_, m₃, -, h⟩ := bind_eq_ok.1 h
    exact Run.allocate_eq_ok h
  · exact Run.allocate_eq_ok h

/-- A function value that is made goes on record with its defaults. -/
theorem Activation.watchedFunction_eq_ok (h : act.watchedFunction L id vs w = .ok v w') :
    ∃ a, v = .ref a ∧ w'.history.journal = .made a L id vs :: w.history.journal := by
  unfold watchedFunction Watched.during at h
  obtain ⟨u, w₂, made, h⟩ := bind_eq_ok.1 h
  obtain ⟨_, w₁, noted, made⟩ := bind_eq_ok.1 made
  cases noted
  unfold Watched.onMachine at made
  cases hm : act.makeFunction id vs w.machine with
  | error e m => simp only [hm] at made; cases made
  | ok u' m =>
    simp only [hm] at made
    cases made
    obtain ⟨a, rfl⟩ := makeFunction_eq_ok hm
    cases h
    exact ⟨a, rfl, rfl⟩

theorem Activation.makes_of_function {w₁ : Watch} (values : (act.watched L call).evalAll es w = .ok vs w₁)
    (made : (act.watched L call).function id vs w₁ = .ok v w') :
    ∃ a, v = .ref a ∧ act.Makes L call id es w a vs w' := by
  obtain ⟨a, rfl, journal⟩ := watchedFunction_eq_ok made
  exact ⟨a, rfl, w₁, Engine.evaluates_of_evalAll values, made, journal⟩

theorem Activation.makes_of_eval (h : (act.watched L call).eval (.function id es) w = .ok v w') :
    ∃ a vs, v = .ref a ∧ act.Makes L call id es w a vs w' := by
  rw [Engine.eval] at h
  obtain ⟨vs, w₁, values, made⟩ := bind_eq_ok.1 h
  obtain ⟨a, rfl, makes⟩ := makes_of_function values made
  exact ⟨a, vs, rfl, makes⟩

theorem Activation.makes_of_exec {x : Code.Name} {flow : Flow}
    (h : (act.watched L call).exec (.define x id es) w = .ok flow w') :
    ∃ a vs w₂, act.Makes L call id es w a vs w₂ ∧ (act.watched L call).store x (.ref a) w₂ = .ok () w' := by
  rw [Engine.exec] at h
  obtain ⟨vs, w₁, values, h⟩ := bind_eq_ok.1 h
  obtain ⟨v, w₂, made, h⟩ := bind_eq_ok.1 h
  obtain ⟨u, w₃, stored, h⟩ := bind_eq_ok.1 h
  cases h
  obtain ⟨a, rfl, makes⟩ := makes_of_function values made
  exact ⟨a, vs, w₂, makes, stored⟩

end execution

/-! ## Definitions and their functions -/

/-- A definition inside some others has become a function of the table, with this code for its defaults. -/
inductive Program.Definition.Compiled (table : Array Function) (Ds : List Definition) :
    Definition → FunctionId → List Code.Expr → Prop where
  | named {x : String} {params : List Param} {body : List Program.Stmt} {y : Code.Name} {id : FunctionId}
    {es : List Code.Expr} (h : StmtScoped table Ds (.define x params body) (.define y id es)) :
    Compiled table Ds (.named x params body) id es
  | lambda {params : List Param} {body : Program.Expr} {id : FunctionId} {es : List Code.Expr}
    (h : ExprScoped table Ds (.lambda params body) (.function id es)) :
    Compiled table Ds (.lambda params body) id es

namespace Program.Definition.Compiled

variable {table : Array Function} {Ds : List Definition} {D : Definition} {id : FunctionId}
  {es : List Code.Expr}

theorem heads (h : D.Compiled table Ds id es) : ∃ f, D.Heads table Ds id f := by
  cases h with
  | named h => cases h with | define _ heads => exact ⟨_, heads⟩
  | lambda h => cases h with | lambda heads => exact ⟨_, heads⟩

theorem values (h : D.Compiled table Ds id es) : DefaultsScoped table Ds D.params es := by
  cases h with
  | named h => cases h with | define _ _ _ values => exact values
  | lambda h => cases h with | lambda _ _ values => exact values

/-- The sorted parameters of the function. -/
theorem sorts (h : D.Compiled table Ds id es) :
    ∃ f g, table[id.index]? = some f ∧ f.signature = .ofGroups g ∧ g.Sorts D.params := by
  obtain ⟨f, heads⟩ := h.heads
  obtain ⟨g, accepted, signature⟩ := heads.signature
  exact ⟨f, g, heads.found, signature, ParamGroups.sorts_of_ofParams accepted⟩

end Program.Definition.Compiled

/-- Each default of a parameter list has its code, in the order of the list. -/
theorem Program.DefaultsScoped.forall₂ {table : Array Function} {Ds : List Definition}
    {params : List Param} {es : List Code.Expr} (h : DefaultsScoped table Ds params es) :
    List.Forall₂ (fun p c => ExprScoped table Ds p.2 c) (paramDefaults params) es := by
  rw [paramDefaults_eq]
  induction params generalizing es with
  | nil =>
    cases h
    exact .nil
  | cons p ps ih =>
    cases h with
    | defaulted head tail => exact .cons head (ih tail)
    | required tail => exact ih tail
    | rest tail => exact ih tail
    | bareStar tail => exact ih tail
    | keywords tail => exact ih tail

/-- A module accepts the program or the expression of a step; the functions afterwards. -/
inductive Module.Accepts (m : Module) : Step → Array Function → Prop where
  | exec {tracer : Trace.Tracer} {program : List Program.Stmt} {code : List Code.Stmt} {after : Module}
    (h : m.resolve (·.resolveProgram program) = (.ok code, after)) :
    Accepts m (.exec tracer program) after.library.functions
  | eval {e : Program.Expr} {code : Code.Expr} {after : Module}
    (h : m.resolve (·.resolveExpr e) = (.ok code, after)) : Accepts m (.eval e) after.library.functions

namespace Module

theorem library_enter {α : Type} (m : Module) (tracer : Trace.Tracer) (x : Library → Run α) :
    (m.enter tracer x).after.library = m.library := by
  obtain ⟨store, globals, after⟩ := m.after_enter tracer x
  rw [after]

theorem Accepts.library {m : Module} {s : Step} {table : Array Function} (h : m.Accepts s table) :
    (m.step s).2.library.functions = table := by
  cases h with
  | exec h => simp only [step, Module.exec, h, reply, library_enter]
  | eval h => simp only [step, Module.eval, h, reply, library_enter]

/-- The code of an accepted program. -/
theorem blockScoped_of_resolve {m after : Module} {program : List Program.Stmt} {code : List Code.Stmt}
    (h : m.resolve (·.resolveProgram program) = (.ok code, after)) :
    BlockScoped after.library.functions [] program code := by
  rw [resolve_eq, Prod.mk.injEq] at h
  obtain ⟨accepted, rfl⟩ := h
  have ran := Code.Draft.attempt_eq_ok (Prod.ext accepted rfl)
  exact (Program.delivers_resolveBlock [] false program ran).2 (.refl _)

theorem run_append (m : Module) (before after : List Step) :
    (m.run (before ++ after)).2 = ((m.run before).2.run after).2 := by
  induction before generalizing m with
  | nil => rfl
  | cons s before ih => exact ih (m.step s).2

/-- The functions that a step of a session adds stay. -/
theorem Tracked.extends_of_accepts {m : Module} {H : History} (h : m.Tracked H) {before after : List Step}
    {s : Step} {table : Array Function} (accepted : (m.run before).2.Accepts s table) :
    Extends table (m.run (before ++ s :: after)).2.library.functions := by
  obtain ⟨H₁, tracked⟩ := (session_right h before).tracked
  obtain ⟨H₂, tracked⟩ := (session_right tracked [s]).tracked
  rw [run_append, ← accepted.library]
  exact (session_right tracked after).grows

end Module

/-! ## Calls -/

/-- A call on the journal was opened in the way that the journal of a run asks for. -/
theorem Journaled.opened {l : Library} {journal later earlier : List Deed} {callee : Value}
    {r : CallRecord} {m : Machine} (h : Journaled l journal)
    (split : journal = later ++ .opened callee args r m :: earlier) : Opened l earlier callee args r m := by
  subst split
  induction later with
  | nil => exact h.1
  | cons d later ih =>
    cases d with
    | made => exact ih h
    | opened => exact ih h.2

/-- A call of a function binds each parameter that it gives no argument for to the default of that parameter. -/
def BindsDefaults (D : Definition) (earlier : List Deed) (callee : Value) (args : Args) (r : CallRecord)
    (m : Machine) : Prop :=
  ∃ a L vs frame, callee = .ref a ∧ birth? a earlier = some ⟨L, r.function, vs⟩ ∧
    m.store.heap.cell? r.frame = some (.frame frame) ∧
    ∀ (k : Nat) p e, (paramDefaults D.params)[k]? = some (p, e) → ¬ Supplied D.params args p →
      ∃ v, vs[k]? = some v ∧ frame.vars.find? p = some v

theorem Opened.bindsDefaults {l : Library} {earlier : List Deed} {callee : Value}
    {r : CallRecord} {m : Machine} {D : Definition} {f : Function} {g : ParamGroups}
    (h : Opened l earlier callee args r m) (found : ∀ f', l.functions[r.function.index]? = some f' → f' = f)
    (signature : f.signature = .ofGroups g) (sorts : g.Sorts D.params) : BindsDefaults D earlier callee args r m := by
  obtain ⟨a, ⟨L, id, vs⟩, f', before, bindings, after, frame, hv, born, same, hf, bound, cell, vars⟩ := h
  subst same
  obtain rfl := found f' hf
  rw [signature] at bound
  refine ⟨a, L, vs, frame, hv, born, cell, fun k p e hk unsupplied => ?_⟩
  rw [vars]
  exact Code.ParamGroups.bind_default sorts bound hk unsupplied

/-- In every session: whenever a definition that was accepted is executed, each of its defaults is evaluated once,
where the definition stands, in the order of the parameters with the positional ones first; and whenever the
function value is called afterwards, the parameters without an argument are bound to the values of their own
defaults. -/
theorem session_defaults_shared (name : String) (meter : Meter) (before : List Step) (s : Step)
    (after : List Step) {table : Array Function} {Ds : List Definition} {D : Definition} {id : FunctionId}
    {es : List Code.Expr} (accepted : ((Module.create name meter).run before).2.Accepts s table)
    (compiled : D.Compiled table Ds id es) :
    let start := Module.create name meter
    let steps := before ++ s :: after
    (start.runWatched {} steps).1 = start.run steps ∧
    List.Forall₂ (fun p c => ExprScoped table Ds p.2 c) (paramDefaults D.params) es ∧
    (∀ (act : Activation) L call w v w', (act.watched L call).eval (.function id es) w = .ok v w' →
      ∃ a vs, v = .ref a ∧ act.Makes L call id es w a vs w') ∧
    (∀ (act : Activation) L call w x flow w', (act.watched L call).exec (.define x id es) w = .ok flow w' →
      ∃ a vs w₁, act.Makes L call id es w a vs w₁ ∧
        (act.watched L call).store x (.ref a) w₁ = .ok () w') ∧
    ∀ μ ∈ (start.runWatched {} steps).2, μ.activation.frame = μ.lineage.frame? ∧
      ∀ later callee args r m earlier,
        μ.history.journal = later ++ .opened callee args r m :: earlier → r.function = id →
          BindsDefaults D earlier callee args r m := by
  intro start steps
  have session := Module.session_right (Module.tracked_create name meter) steps
  refine ⟨session.result, compiled.values.forall₂, fun _ _ _ _ _ _ => Activation.makes_of_eval,
    fun _ _ _ _ _ _ _ => Activation.makes_of_exec, fun μ hμ => ?_⟩
  obtain ⟨⟨word, right⟩, -⟩ := session.moments μ hμ
  refine ⟨right.frame, fun later callee args r m earlier split function => ?_⟩
  obtain ⟨f, g, found, signature, sorts⟩ := compiled.sorts
  have final : (start.run steps).2.library.functions[id.index]? = some f :=
    (Module.tracked_create name meter).extends_of_accepts accepted found
  refine (right.tracked.tracks.journal.opened split).bindsDefaults (fun f' hf' => ?_) signature sorts
  have last := session.libraries μ hμ hf'
  rw [function, final] at last
  exact (Option.some.inj last).symm

/-- A positional and a keyword-only parameter with a default, each after a required one. -/
def mixedDefinition : Definition :=
  .named "f" [.required "a", .defaulted "b" (.list []), .bareStar, .required "c", .defaulted "d" (.dict [])]
    [.giveBack (some (.name "b"))]

/-- A program that makes the function and gives it a second name. -/
def aliasProgram : List Program.Stmt :=
  [.define "f" mixedDefinition.params mixedDefinition.stmts, .assign (.name "g") (.name "f")]

/-- A call under the second name, without the arguments that have a default. -/
def aliasCall : Program.Expr := .call (.name "g") [.positional (.bool true), .keyword "c" .none]

/-- The function and the arguments of the call that was opened last, unless a function value was made since. -/
def Moment.lastCall? (μ : Moment) : Option (FunctionId × Args) :=
  match μ.history.journal with
  | .opened _ args r _ :: _ => some (r.function, args)
  | _ => none

theorem Moment.journal_of_lastCall? {μ : Moment} {id : FunctionId} (h : μ.lastCall? = some (id, args)) :
    ∃ callee r m earlier, μ.history.journal = .opened callee args r m :: earlier ∧ r.function = id := by
  unfold lastCall? at h
  split at h
  · rename_i callee args r m earlier journal
    cases h
    exact ⟨callee, r, m, earlier, journal, rfl⟩
  · cases h

theorem session_defaults_shared_aliasProgram :
    ∃ table es, (Module.create "m" (.depthOnly none)).Accepts (.exec .silent aliasProgram) table ∧
      mixedDefinition.Compiled table [] ⟨0⟩ es ∧
      ∃ μ ∈ ((Module.create "m" (.depthOnly none)).runWatched {}
        [.exec .silent aliasProgram, .eval aliasCall]).2, ∃ callee args r m earlier,
        μ.history.journal = .opened callee args r m :: earlier ∧ r.function = ⟨0⟩ ∧
        ¬ Supplied mixedDefinition.params args "b" ∧ ¬ Supplied mixedDefinition.params args "d" ∧
        BindsDefaults mixedDefinition earlier callee args r m := by
  have resolved : ∃ after, (Module.create "m" (.depthOnly none)).resolve (·.resolveProgram aliasProgram) =
      (.ok [.define ⟨"f", .global⟩ ⟨0⟩ [.list [], .dict []],
        .assign (.name ⟨"g", .global⟩) (.name ⟨"f", .global⟩)], after) := ⟨_, rfl⟩
  obtain ⟨after, resolved⟩ := resolved
  have compiled : mixedDefinition.Compiled after.library.functions [] ⟨0⟩ [.list [], .dict []] := by
    cases Module.blockScoped_of_resolve resolved with
    | cons head _ => exact .named head
  have called : some (⟨0⟩, ⟨[.bool true], [("c", .none)]⟩) ∈
      ((Module.create "m" (.depthOnly none)).runWatched {}
        [.exec .silent aliasProgram, .eval aliasCall]).2.map Moment.lastCall? := by
    decide +kernel
  obtain ⟨μ, hμ, last⟩ := List.mem_map.1 called
  obtain ⟨callee, r, m, earlier, journal, function⟩ := Moment.journal_of_lastCall? last
  obtain ⟨-, -, -, -, calls⟩ := session_defaults_shared "m" (.depthOnly none) [] (.exec .silent aliasProgram)
    [.eval aliasCall] (.exec resolved) compiled
  exact ⟨_, _, .exec resolved, compiled, μ, hμ, callee, _, r, m, earlier, journal, function,
    by decide, by decide, (calls μ hμ).2 [] callee _ r m earlier journal function⟩

end Scriptlet
