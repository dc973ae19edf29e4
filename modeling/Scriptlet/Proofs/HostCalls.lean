import Scriptlet.Proofs.Data.Lists
import Scriptlet.Proofs.Lockstep
import Scriptlet.Proofs.Tracing.Entries

/-!
# Calls by the host and calls in programs

A host can call a global with objects, and it can evaluate a call in which the objects are written out as literals
and displays of lists, tuples and dictionaries. Both give the same answer: the arguments are built by the same
operations in the same order, so that limits, keys that are given twice and keys that cannot be hashed show alike.
Only the words that the module gets to know differ, and these have no influence on a run.

Strings are left out, since a string that is written in a program is not a heap object. So are structs, for which
there is no display, and objects that are nested too deeply for a host to pass in.
-/

namespace Scriptlet

open Budget (maxDataDepth)
open Call (Args)
open Program (resolveArgs resolveEntries resolveExprs)

/-! ## Displays -/

/-- The expression that displays an object nested in fewer than `n` containers. There is one if the object is made of
none, booleans, integers, lists, tuples and dictionaries alone. -/
def Object.displayWithin? : Nat → Object → Option Program.Expr
  | 0, _ => Option.none
  | _ + 1, .none => some .none
  | _ + 1, .bool b => some (.bool b)
  | _ + 1, .int i => some (.int i)
  | n + 1, .list items => return .list (← items.mapM (displayWithin? n))
  | n + 1, .tuple items => return .tuple (← items.mapM (displayWithin? n))
  | n + 1, .dict pairs => return .dict (← pairs.mapM fun (k, v) =>
      return (← displayWithin? n k, ← displayWithin? n v))
  | _ + 1, _ => Option.none

/-- The expression that displays an object that a host can pass in. -/
def Object.display? (o : Object) : Option Program.Expr := o.displayWithin? (maxDataDepth + 1)

/-- The arguments that display positional and keyword arguments of a host. -/
def Object.displayArgs? (positional : List Object) (keywords : List (String × Object)) :
    Option (List Program.Arg) := do
  let positional ← positional.mapM fun o => return .positional (← o.display?)
  let keywords ← keywords.mapM fun (x, o) => return .keyword x (← o.display?)
  return positional ++ keywords

/-- Resolving the expression meets no words, and the code that it gives does the computation on the store wherever it
runs. -/
def Program.Expr.Builds (e : Program.Expr) (x : StoreM Value) : Prop :=
  ∃ code, (∀ scopes, e.resolve scopes = pure code) ∧
    ∀ act : Activation, act.engine.eval code = Run.onStore x

namespace Object

variable {n : Nat}

theorem builds_items (ih : ∀ {o e}, displayWithin? n o = some e → e.Builds (o.buildWithin n))
    {items : List Object} {es : List Program.Expr} (h : items.mapM (displayWithin? n) = some es) :
    ∃ codes, (∀ scopes, resolveExprs scopes es = pure codes) ∧
      ∀ act : Activation, act.engine.evalAll codes = Run.onStore (items.mapM (buildWithin n)) := by
  induction mapM_eq_some.1 h with
  | nil => exact ⟨[], fun _ => rfl, fun _ => rfl⟩
  | cons displayed rest ihs =>
    obtain ⟨code, resolved, evaluated⟩ := ih displayed
    obtain ⟨codes, resolvedAll, evaluatedAll⟩ := ihs (mapM_eq_some.2 rest)
    refine ⟨code :: codes, fun scopes => ?_, fun act => ?_⟩
    · rw [resolveExprs, resolved, resolvedAll]
      rfl
    · rw [Engine.evalAll, evaluated, evaluatedAll, List.mapM_cons]
      simp only [Run.onStore_bind]
      rfl

theorem builds_pairs (ih : ∀ {o e}, displayWithin? n o = some e → e.Builds (o.buildWithin n))
    {pairs : List (Object × Object)} {es : List (Program.Expr × Program.Expr)}
    (h : pairs.mapM (fun (k, v) => return (← displayWithin? n k, ← displayWithin? n v)) = some es) :
    ∃ codes, (∀ scopes, resolveEntries scopes es = pure codes) ∧
      ∀ (act : Activation) (entries : OrderedMap Key (Value × Value)),
        act.engine.evalEntries entries codes =
          Run.onStore (pairs.foldlM (fun (entries : OrderedMap Key (Value × Value)) (k, v) => do
            let k ← buildWithin n k
            let v ← buildWithin n v
            let key ← Store.inspect k.key
            return entries.insert key (k, v)) entries) := by
  induction mapM_eq_some.1 h with
  | nil => exact ⟨[], fun _ => rfl, fun _ _ => rfl⟩
  | cons displayed rest ihs =>
    obtain ⟨ek, hk, displayed⟩ := Option.bind_eq_some_iff.1 displayed
    obtain ⟨ev, hv, made⟩ := Option.bind_eq_some_iff.1 displayed
    cases made
    obtain ⟨key, resolvedKey, evaluatedKey⟩ := ih hk
    obtain ⟨value, resolvedValue, evaluatedValue⟩ := ih hv
    obtain ⟨codes, resolvedAll, evaluatedAll⟩ := ihs (mapM_eq_some.2 rest)
    refine ⟨(key, value) :: codes, fun scopes => ?_, fun act entries => ?_⟩
    · rw [resolveEntries, resolvedKey, resolvedValue, resolvedAll]
      rfl
    · rw [Engine.evalEntries, evaluatedKey, evaluatedValue, List.foldlM_cons]
      simp only [Run.onStore_bind, bind_assoc, pure_bind, evaluatedAll]
      rfl

/-- The display of an object builds it. -/
theorem builds_displayWithin? {o : Object} {e : Program.Expr} (h : displayWithin? n o = some e) :
    e.Builds (o.buildWithin n) := by
  induction n generalizing o e with
  | zero => cases h
  | succ n ih =>
    cases o with
    | none =>
      cases h
      exact ⟨_, fun _ => rfl, fun _ => rfl⟩
    | bool b =>
      cases h
      exact ⟨_, fun _ => rfl, fun _ => rfl⟩
    | int i =>
      cases h
      exact ⟨_, fun _ => rfl, fun _ => rfl⟩
    | list items =>
      obtain ⟨es, hes, made⟩ := Option.bind_eq_some_iff.1 h
      cases made
      obtain ⟨codes, resolved, evaluated⟩ := builds_items ih hes
      refine ⟨.list codes, fun scopes => ?_, fun act => ?_⟩
      · rw [Program.Expr.resolve, resolved]
        rfl
      · rw [Engine.eval, evaluated, buildWithin, Run.onStore_bind]
        rfl
    | tuple items =>
      obtain ⟨es, hes, made⟩ := Option.bind_eq_some_iff.1 h
      cases made
      obtain ⟨codes, resolved, evaluated⟩ := builds_items ih hes
      refine ⟨.tuple codes, fun scopes => ?_, fun act => ?_⟩
      · rw [Program.Expr.resolve, resolved]
        rfl
      · rw [Engine.eval, evaluated, buildWithin, Run.onStore_bind]
        rfl
    | dict pairs =>
      obtain ⟨es, hes, made⟩ := Option.bind_eq_some_iff.1 h
      cases made
      obtain ⟨codes, resolved, evaluated⟩ := builds_pairs ih hes
      refine ⟨.dict codes, fun scopes => ?_, fun act => ?_⟩
      · rw [Program.Expr.resolve, resolved]
        rfl
      · rw [Engine.eval, evaluated, buildWithin, Run.onStore_bind]
        rfl
    | _ => cases h

end Object

/-! ## Arguments -/

/-- Resolving the arguments meets at most some words, and the code that it gives does the computation on the store
wherever it runs. -/
def Program.BuildsArgs (keywordSeen : Bool) (args : List Program.Arg) (x : StoreM Args) : Prop :=
  ∃ codes, (∀ d, ∃ lexicon, resolveArgs [] keywordSeen args d = .ok codes { d with lexicon }) ∧
    ∀ act : Activation, act.engine.evalArgs codes = Run.onStore x

namespace Program.BuildsArgs

variable {e : Program.Expr} {x : StoreM Value} {args : List Program.Arg} {y : StoreM Args}

theorem nil (keywordSeen : Bool) : BuildsArgs keywordSeen [] (return {}) :=
  ⟨[], fun d => ⟨d.lexicon, rfl⟩, fun _ => rfl⟩

theorem positional (he : e.Builds x) (hargs : BuildsArgs false args y) :
    BuildsArgs false (.positional e :: args)
      (do let v ← x; let args ← y; return args.consPositional [v]) := by
  obtain ⟨code, resolved, evaluated⟩ := he
  obtain ⟨codes, resolvedAll, evaluatedAll⟩ := hargs
  refine ⟨.positional code :: codes, fun d => ?_, fun act => ?_⟩
  · obtain ⟨lexicon, rest⟩ := resolvedAll d
    refine ⟨lexicon, ?_⟩
    rw [resolveArgs, resolved]
    exact bind_of_ok rest
  · rw [Engine.evalArgs, evaluated, evaluatedAll]
    simp only [Run.onStore_bind]
    rfl

theorem keyword (keywordSeen : Bool) (w : String) (he : e.Builds x) (hargs : BuildsArgs true args y) :
    BuildsArgs keywordSeen (.keyword w e :: args)
      (do let v ← x; let args ← y; return args.consKeywords [(w, v)]) := by
  obtain ⟨code, resolved, evaluated⟩ := he
  obtain ⟨codes, resolvedAll, evaluatedAll⟩ := hargs
  refine ⟨.keyword w code :: codes, fun d => ?_, fun act => ?_⟩
  · obtain ⟨lexicon, rest⟩ := resolvedAll { d with lexicon := d.lexicon.learn w }
    refine ⟨lexicon, ?_⟩
    rw [resolveArgs, resolved]
    exact bind_of_ok rest
  · rw [Engine.evalArgs, evaluated, evaluatedAll]
    simp only [Run.onStore_bind]
    rfl

end Program.BuildsArgs

namespace Object

open Program (BuildsArgs)

theorem builds_keywords {keywords : List (String × Object)} {args : List Program.Arg}
    (h : keywords.mapM (fun (x, o) => return Program.Arg.keyword x (← o.display?)) = some args) (keywordSeen : Bool) :
    BuildsArgs keywordSeen args
      (do let keywords ← keywords.mapM fun (x, o) => return (x, ← o.build); return { keywords }) := by
  induction mapM_eq_some.1 h generalizing keywordSeen with
  | nil => exact .nil keywordSeen
  | @cons p _ _ _ displayed rest ih =>
    obtain ⟨e, he, made⟩ := Option.bind_eq_some_iff.1 displayed
    cases made
    have built := BuildsArgs.keyword keywordSeen p.1 (builds_displayWithin? he) (ih (mapM_eq_some.2 rest) true)
    simp only [List.mapM_cons, bind_assoc, pure_bind] at built ⊢
    exact built

theorem builds_positional {positional : List Object} {first rest : List Program.Arg}
    {k : StoreM (List (String × Value))}
    (h : positional.mapM (fun o => return Program.Arg.positional (← o.display?)) = some first)
    (hrest : BuildsArgs false rest (do let keywords ← k; return { keywords })) :
    BuildsArgs false (first ++ rest)
      (do let positional ← positional.mapM build; let keywords ← k; return { positional, keywords }) := by
  induction mapM_eq_some.1 h with
  | nil => exact hrest
  | cons displayed rest ih =>
    obtain ⟨e, he, made⟩ := Option.bind_eq_some_iff.1 displayed
    cases made
    have built := BuildsArgs.positional (builds_displayWithin? he) (ih (mapM_eq_some.2 rest))
    simp only [List.mapM_cons, bind_assoc, pure_bind] at built ⊢
    exact built

/-- The arguments of a call by the host, but for the words. -/
def buildArgs (positional : List Object) (keywords : List (String × Object)) : StoreM Args := do
  let positional ← positional.mapM build
  let keywords ← keywords.mapM fun (x, o) => return (x, ← o.build)
  return { positional, keywords }

theorem builds_displayArgs? {positional : List Object} {keywords : List (String × Object)}
    {args : List Program.Arg} (h : displayArgs? positional keywords = some args) :
    BuildsArgs false args (buildArgs positional keywords) := by
  obtain ⟨first, hfirst, h⟩ := Option.bind_eq_some_iff.1 h
  obtain ⟨second, hsecond, h⟩ := Option.bind_eq_some_iff.1 h
  cases h
  exact builds_positional hfirst (builds_keywords hsecond false)

end Object

/-! ## Words -/

/-- Machines that differ in the words they know. -/
def Coupling.words : Coupling := metered (fun _ _ => True) fun _ _ => trivial

/-- The host's call meets a keyword where it builds the argument, and the program met it before. -/
theorem Object.lockstep_buildArgs (limit : Nat) (positional : List Object) (keywords : List (String × Object)) :
    Lockstep .words limit Args (Chronicled.buildArgs positional keywords)
      (Run.onStore (buildArgs positional keywords)) := by
  have R := Chronicled.relates_lockstep .words limit
  refine R.stores.bind (R.stores.mapM R.build positional) fun vs => ?_
  refine R.stores.bind (R.stores.mapM (fun kv => ?_) keywords) fun kvs => R.pure _
  have met : Lockstep .words limit Unit (Chronicled.learn kv.1) (pure ()) := by
    refine ⟨(Chronicled.lockstep_learn kv.1 : Lockstep .words limit ..).recounts, ?_⟩
    rintro ⟨⟨⟨heap, lexicon⟩, globals, tracer⟩, past⟩ _ ⟨⟨hh, -⟩, _, _⟩
    exact .ok ⟨⟨hh, trivial⟩, _, _⟩
  exact R.stores.bind (R.build kv.2) fun v => R.bind met fun _ => R.pure _

/-! ## Both calls -/

theorem Code.Draft.resolveExpr_call (d : Draft) (x : String) {args : List Program.Arg} {codes : List Arg}
    (resolved : ∀ d, ∃ lexicon, resolveArgs [] false args d = .ok codes { d with lexicon }) :
    ∃ lexicon, d.resolveExpr (.call (.name x) args) =
      (.ok (.call (.name ⟨x, .global⟩) codes), { d with lexicon }) := by
  obtain ⟨lexicon, functions⟩ := d
  obtain ⟨lexicon', resolvedArgs⟩ := resolved ⟨lexicon.learn x, functions⟩
  refine ⟨lexicon', ?_⟩
  have resolvedCall : (Program.Expr.call (.name x) args).resolve [] ⟨lexicon, functions⟩ =
      .ok (.call (.name ⟨x, .global⟩) codes) ⟨lexicon', functions⟩ := by
    rw [Program.Expr.resolve]
    exact bind_of_ok resolvedArgs
  simp only [resolveExpr, attempt, resolvedCall]

/-- A call of a global with arguments that are built first, and the object of its result. -/
def Run.callBuilt (l : Library) (limit : Nat) (x : String) (build : StoreM Args) : Run Object := do
  let callee ← loadGlobal l x
  let args ← onStore build
  let v ← callWithin l limit limit callee args
  inspect (v.unfold l)

/-- The result or failure of a run. -/
def Run.answer {σ α : Type} : EStateM.Result Failure σ α → Except Failure α
  | .ok a _ => .ok a
  | .error e _ => .error e

theorem Lockstep.Ends.answer {C : Coupling} {α : Type} {r : EStateM.Result Failure Chronicle α}
    {q : EStateM.Result Failure Machine α} (h : Ends C r q) (never : ¬ C.parts) : Run.answer r = Run.answer q := by
  cases h with
  | ok h => rfl
  | error h => rfl
  | partOk parts => exact absurd parts never
  | partError parts => exact absurd parts never

namespace Module

theorem answer_enter {α : Type} (m : Module) (tracer : Trace.Tracer) (x : Library → Run α) :
    (m.enter tracer x).answer = Run.answer (x m.library (m.machine tracer)) := by
  obtain ⟨name, library, store, globals⟩ := m
  simp only [enter, machine]
  cases x library ⟨store, globals, tracer⟩ <;> rfl

/-- The host's call is such a call. The limit of the depth is read after the arguments were built, but that does not
change it. -/
theorem answer_call (m : Module) (tracer : Trace.Tracer) (x : String) (positional : List Object)
    (keywords : List (String × Object)) :
    (m.call tracer x positional keywords).answer =
      (m.enter tracer fun l =>
        Run.callBuilt l m.heap.meter.depthLimit x (buildArgs positional keywords)).answer := by
  obtain ⟨name, library, store, globals⟩ := m
  have kept := along_buildArgs positional keywords store
  simp only [call, enter, heap, Run.callBuilt]
  cases found : globals.lookup library x with
  | error e =>
    have failed : Run.loadGlobal library x ⟨store, globals, tracer⟩ = .error e.failure ⟨store, globals, tracer⟩ := by
      simp only [Run.loadGlobal, found]
    rw [bind_of_error failed]
  | ok callee =>
    have loaded : Run.loadGlobal library x ⟨store, globals, tracer⟩ =
        .ok callee ⟨store, globals, tracer⟩ := by
      simp only [Run.loadGlobal, found]
    rw [bind_of_ok loaded]
    cases built : buildArgs positional keywords store with
    | error e store' =>
      have failed : Run.onStore (buildArgs positional keywords) ⟨store, globals, tracer⟩ =
          .error e ⟨store', globals, tracer⟩ := by
        simp only [Run.onStore, built]
      rw [bind_of_error failed]
    | ok args store' =>
      have done : Run.onStore (buildArgs positional keywords) ⟨store, globals, tracer⟩ =
          .ok args ⟨store', globals, tracer⟩ := by
        simp only [Run.onStore, built]
      rw [built] at kept
      cases kept with
      | ok same =>
        have same : store'.heap.meter.depthLimit = store.heap.meter.depthLimit := same
        rw [bind_of_ok done, ← same]
        rfl

/-- So is the call in a program that displays the arguments, of a module that knows other words. -/
theorem answer_eval_call (m : Module) (x : String) {args : List Program.Arg} {build : StoreM Args}
    (h : Program.BuildsArgs false args build) :
    ∃ lexicon, (m.eval (.call (.name x) args)).answer =
      (enter { m with store := { m.store with lexicon } } .silent fun l =>
        Run.callBuilt l m.heap.meter.depthLimit x build).answer := by
  obtain ⟨codes, resolved, evaluated⟩ := h
  obtain ⟨name, ⟨functions, natives, builtins, methods⟩, ⟨heap, lexicon⟩, globals⟩ := m
  obtain ⟨lexicon', resolvedCall⟩ := Code.Draft.resolveExpr_call ⟨lexicon, functions⟩ x resolved
  refine ⟨lexicon', ?_⟩
  have called (l : Library) : (do
      let v ← Run.evalTop l (.call (.name ⟨x, .global⟩) codes)
      Run.inspect (v.unfold l) : Run Object) ⟨⟨heap, lexicon'⟩, globals, .silent⟩ =
        Run.callBuilt l heap.meter.depthLimit x build ⟨⟨heap, lexicon'⟩, globals, .silent⟩ := by
    have first : Run.evalTop l (.call (.name ⟨x, .global⟩) codes) ⟨⟨heap, lexicon'⟩, globals, .silent⟩ =
        (do let callee ← Run.loadGlobal l x
            let args ← Run.onStore build
            Run.callWithin l heap.meter.depthLimit heap.meter.depthLimit callee args : Run Value)
          ⟨⟨heap, lexicon'⟩, globals, .silent⟩ := by
      rw [Run.evalTop, Engine.eval, evaluated]
      rfl
    rw [bind_congr_of_eq first]
    simp only [Run.callBuilt, bind_assoc]
  simp only [eval, resolve, resolvedCall, enter, called]
  rfl

end Module

/-- A chronicled call of a global with arguments that are built first, and the object of its result. -/
def Chronicled.callBuilt (l : Library) (limit : Nat) (x : String) (build : Chronicled Args) : Chronicled Object := do
  let callee ← onMachine (Run.loadGlobal l x)
  let args ← build
  let v ← callWithin l limit limit callee args
  inspect (v.unfold l)

open Chronicled in
theorem Run.lockstep_callBuilt (C : Coupling) (l : Library) {limit : Nat} (x : String) {build : Chronicled Args}
    {plain : StoreM Args} (h : Lockstep C limit Args build (onStore plain)) :
    Lockstep C limit Object (Chronicled.callBuilt l limit x build) (callBuilt l limit x plain) := by
  have R := corresponds_lockstep C l limit 0 (by simp)
  refine (lockstep_loadGlobal l x).bind fun callee => h.bind fun args => ?_
  exact (R.callWithin limit (Nat.le_refl _) callee args).bind fun v => lockstep_inspect (v.looks_unfold l)

/-- A host that calls a global with objects gets the same result or failure as one that evaluates the call with the
displays of the objects. -/
theorem call_eq_eval (m : Module) (x : String) {positional : List Object} {keywords : List (String × Object)}
    {args : List Program.Arg} (h : Object.displayArgs? positional keywords = some args) :
    (m.call .silent x positional keywords).answer = (m.eval (.call (.name x) args)).answer := by
  obtain ⟨lexicon, evaluated⟩ := m.answer_eval_call x (Object.builds_displayArgs? h)
  have built := (Chronicled.relates_lockstep .same m.depthLimit).buildArgs positional keywords
  have host := (Run.lockstep_callBuilt .same m.library x built).ends (w := ⟨m.machine .silent, []⟩)
    (Coupling.machines_same.2 rfl)
  have displayed := Object.lockstep_buildArgs m.depthLimit positional keywords
  have program := (Run.lockstep_callBuilt .words m.library x displayed).ends (w := ⟨m.machine .silent, []⟩)
    (m := ⟨{ m.store with lexicon }, m.globals, .silent⟩) ⟨⟨⟨_, _, _, rfl⟩, trivial⟩, _, _⟩
  rw [m.answer_call, evaluated, Module.answer_enter, Module.answer_enter]
  exact (host.answer id).symm.trans (program.answer id)

/-- A dictionary whose only key is given twice. -/
def keyedTwice : Object := .dict [(.tuple [.none], .list [.none]), (.tuple [.none], .bool true)]

theorem call_eq_eval_keyedTwice :
    (lengthModule.call .silent "len" [keyedTwice] []).answer =
      (lengthModule.eval (.call (.name "len")
        [.positional (.dict [(.tuple [.none], .list [.none]), (.tuple [.none], .bool true)])])).answer :=
  call_eq_eval lengthModule "len" rfl

end Scriptlet
