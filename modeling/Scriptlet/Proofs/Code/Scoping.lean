import Scriptlet.Proofs.Code.Resolution

/-!
# Lexical scoping

What it means for code to be a program with every name put in its lexical scope. A definition binds its
parameters and the names that its body assigns to. A name belongs to the innermost definition around it that
binds it, and to the module if there is none. The relation between a program and its code goes through both side
by side, into the functions of the table wherever the program has a definition.
-/

namespace Scriptlet

namespace Program

/-! ## What a definition binds -/

/-- A target assigns to a name, at any depth of tuples. -/
inductive Target.Assigns : Target → String → Prop where
  | name {x : String} : Assigns (.name x) x
  | tuple {ts : List Target} {t : Target} {x : String} (mem : t ∈ ts) (h : Assigns t x) :
    Assigns (.tuple ts) x

/-- A statement assigns to a name. The body of a function that it defines is not part of it. -/
inductive Stmt.Assigns : Stmt → String → Prop where
  | assign {target : Target} {value : Expr} {x : String} (h : target.Assigns x) :
    Assigns (.assign target value) x
  | augment {target : Target} {op : Operator} {value : Expr} {x : String} (h : target.Assigns x) :
    Assigns (.augment target op value) x
  | body {test : Expr} {body orelse : List Stmt} {s : Stmt} {x : String} (mem : s ∈ body)
    (h : Assigns s x) : Assigns (.branch test body orelse) x
  | orelse {test : Expr} {body orelse : List Stmt} {s : Stmt} {x : String} (mem : s ∈ orelse)
    (h : Assigns s x) : Assigns (.branch test body orelse) x
  | loopTarget {target : Target} {iter : Expr} {body : List Stmt} {x : String}
    (h : target.Assigns x) : Assigns (.loop target iter body) x
  | loopBody {target : Target} {iter : Expr} {body : List Stmt} {s : Stmt} {x : String}
    (mem : s ∈ body) (h : Assigns s x) : Assigns (.loop target iter body) x
  | define {x : String} {params : List Param} {body : List Stmt} : Assigns (.define x params body) x

/-- A definition of a program. -/
inductive Definition where
  | named (name : String) (params : List Param) (body : List Stmt)
  | lambda (params : List Param) (body : Expr)

namespace Definition

/-- The name of the function. -/
def name : Definition → String
  | .named name _ _ => name
  | .lambda _ _ => "lambda"

def params : Definition → List Param
  | .named _ params _ => params
  | .lambda params _ => params

/-- The statements of the body; an expression assigns to nothing. -/
def stmts : Definition → List Stmt
  | .named _ _ body => body
  | .lambda _ _ => []

/-- A definition binds a name: as a parameter or as what its body assigns to. -/
def Binds (D : Definition) (x : String) : Prop :=
  (∃ p ∈ D.params, p.name? = some x) ∨ ∃ s ∈ D.stmts, s.Assigns x

end Definition

/-! ## Programs and their code -/

open Code (Function ParamGroups Scope)

/-- The scope of a name inside some definitions, innermost first. -/
structure Lexical (enclosers : List Definition) (x : String) (scope : Scope) : Prop where
  own : scope = .own ↔ ∃ D ∈ enclosers.head?, D.Binds x
  outer : ∀ k, scope = .outer k ↔
    1 ≤ k ∧ (∃ D ∈ enclosers[k]?, D.Binds x) ∧ ∀ j < k, ∀ D ∈ enclosers[j]?, ¬ D.Binds x
  global : scope = .global ↔ ∀ D ∈ enclosers, ¬ D.Binds x

/-- A function of the table, apart from its body, is what a definition inside some others asks for. -/
structure Definition.Heads (table : Array Function) (enclosers : List Definition) (D : Definition)
    (id : FunctionId) (f : Function) : Prop where
  found : table[id.index]? = some f
  name : f.name = D.name
  signature : ∃ g, ParamGroups.ofParams D.name D.params = .ok g ∧ f.signature = .ofGroups g
  nested : f.nested = true ↔ enclosers ≠ []

section relation

variable (table : Array Function)

mutual

/-- An expression inside some definitions and its code. -/
inductive ExprScoped : List Definition → Expr → Code.Expr → Prop where
  | none {Ds} : ExprScoped Ds .none (.literal .none)
  | bool {Ds b} : ExprScoped Ds (.bool b) (.literal (.bool b))
  | int {Ds n} : ExprScoped Ds (.int n) (.literal (.int n))
  | str {Ds s} : ExprScoped Ds (.str s) (.literal (.str s))
  | name {Ds x scope} (h : Lexical Ds x scope) : ExprScoped Ds (.name x) (.name ⟨x, scope⟩)
  | list {Ds es cs} (h : ExprsScoped Ds es cs) : ExprScoped Ds (.list es) (.list cs)
  | tuple {Ds es cs} (h : ExprsScoped Ds es cs) : ExprScoped Ds (.tuple es) (.tuple cs)
  | dict {Ds es cs} (h : EntriesScoped Ds es cs) : ExprScoped Ds (.dict es) (.dict cs)
  | index {Ds e c e' c'} (h : ExprScoped Ds e c) (h' : ExprScoped Ds e' c') :
    ExprScoped Ds (.index e e') (.index c c')
  | attr {Ds e c a} (h : ExprScoped Ds e c) : ExprScoped Ds (.attr e a) (.attr c a)
  | call {Ds e c args cs} (h : ExprScoped Ds e c) (h' : ArgsScoped Ds args cs) :
    ExprScoped Ds (.call e args) (.call c cs)
  | binary {Ds e c op e' c'} (h : ExprScoped Ds e c) (h' : ExprScoped Ds e' c') :
    ExprScoped Ds (.binary e op e') (.binary c op c')
  | compare {Ds e c op e' c'} (h : ExprScoped Ds e c) (h' : ExprScoped Ds e' c') :
    ExprScoped Ds (.compare e op e') (.compare c op c')
  | not {Ds e c} (h : ExprScoped Ds e c) : ExprScoped Ds (.not e) (.not c)
  | neg {Ds e c} (h : ExprScoped Ds e c) : ExprScoped Ds (.neg e) (.neg c)
  | and {Ds e c e' c'} (h : ExprScoped Ds e c) (h' : ExprScoped Ds e' c') :
    ExprScoped Ds (.and e e') (.and c c')
  | or {Ds e c e' c'} (h : ExprScoped Ds e c) (h' : ExprScoped Ds e' c') :
    ExprScoped Ds (.or e e') (.or c c')
  | cond {Ds e c e₁ c₁ e₂ c₂} (h : ExprScoped Ds e c) (h₁ : ExprScoped Ds e₁ c₁)
    (h₂ : ExprScoped Ds e₂ c₂) : ExprScoped Ds (.cond e e₁ e₂) (.cond c c₁ c₂)
  /-- The defaults stand outside of the new function, the body inside. -/
  | lambda {Ds params e id f c defaults}
    (heads : (Definition.lambda params e).Heads table Ds id f) (code : f.body = .expr c)
    (values : DefaultsScoped Ds params defaults) (body : ExprScoped (.lambda params e :: Ds) e c) :
    ExprScoped Ds (.lambda params e) (.function id defaults)

inductive ExprsScoped : List Definition → List Expr → List Code.Expr → Prop where
  | nil {Ds} : ExprsScoped Ds [] []
  | cons {Ds e c es cs} (head : ExprScoped Ds e c) (tail : ExprsScoped Ds es cs) :
    ExprsScoped Ds (e :: es) (c :: cs)

inductive EntriesScoped :
    List Definition → List (Expr × Expr) → List (Code.Expr × Code.Expr) → Prop where
  | nil {Ds} : EntriesScoped Ds [] []
  | cons {Ds k k' v v' es cs} (key : ExprScoped Ds k k') (value : ExprScoped Ds v v')
    (tail : EntriesScoped Ds es cs) : EntriesScoped Ds ((k, v) :: es) ((k', v') :: cs)

inductive ArgsScoped : List Definition → List Arg → List Code.Arg → Prop where
  | nil {Ds} : ArgsScoped Ds [] []
  | positional {Ds e c as cs} (head : ExprScoped Ds e c) (tail : ArgsScoped Ds as cs) :
    ArgsScoped Ds (.positional e :: as) (.positional c :: cs)
  | keyword {Ds x e c as cs} (head : ExprScoped Ds e c) (tail : ArgsScoped Ds as cs) :
    ArgsScoped Ds (.keyword x e :: as) (.keyword x c :: cs)
  | spread {Ds e c as cs} (head : ExprScoped Ds e c) (tail : ArgsScoped Ds as cs) :
    ArgsScoped Ds (.spread e :: as) (.spread c :: cs)
  | spreadKeywords {Ds e c as cs} (head : ExprScoped Ds e c) (tail : ArgsScoped Ds as cs) :
    ArgsScoped Ds (.spreadKeywords e :: as) (.spreadKeywords c :: cs)

/-- The defaults of a parameter list and their code, in the order of the list. -/
inductive DefaultsScoped : List Definition → List Param → List Code.Expr → Prop where
  | nil {Ds} : DefaultsScoped Ds [] []
  | defaulted {Ds x e c ps cs} (head : ExprScoped Ds e c) (tail : DefaultsScoped Ds ps cs) :
    DefaultsScoped Ds (.defaulted x e :: ps) (c :: cs)
  | required {Ds x ps cs} (tail : DefaultsScoped Ds ps cs) : DefaultsScoped Ds (.required x :: ps) cs
  | rest {Ds x ps cs} (tail : DefaultsScoped Ds ps cs) : DefaultsScoped Ds (.rest x :: ps) cs
  | bareStar {Ds ps cs} (tail : DefaultsScoped Ds ps cs) : DefaultsScoped Ds (.bareStar :: ps) cs
  | keywords {Ds x ps cs} (tail : DefaultsScoped Ds ps cs) : DefaultsScoped Ds (.keywords x :: ps) cs

end

mutual

/-- A target inside some definitions and its code. -/
inductive TargetScoped : List Definition → Target → Code.Target → Prop where
  | name {Ds x scope} (h : Lexical Ds x scope) : TargetScoped Ds (.name x) (.name ⟨x, scope⟩)
  | index {Ds e c e' c'} (h : ExprScoped table Ds e c) (h' : ExprScoped table Ds e' c') :
    TargetScoped Ds (.index e e') (.index c c')
  | tuple {Ds ts cs} (h : TargetsScoped Ds ts cs) : TargetScoped Ds (.tuple ts) (.tuple cs)

inductive TargetsScoped : List Definition → List Target → List Code.Target → Prop where
  | nil {Ds} : TargetsScoped Ds [] []
  | cons {Ds t c ts cs} (head : TargetScoped Ds t c) (tail : TargetsScoped Ds ts cs) :
    TargetsScoped Ds (t :: ts) (c :: cs)

end

mutual

/-- A statement inside some definitions and its code. -/
inductive StmtScoped : List Definition → Stmt → Code.Stmt → Prop where
  | expr {Ds e c} (h : ExprScoped table Ds e c) : StmtScoped Ds (.expr e) (.expr c)
  | assign {Ds t t' e c} (h : TargetScoped table Ds t t') (h' : ExprScoped table Ds e c) :
    StmtScoped Ds (.assign t e) (.assign t' c)
  | augment {Ds t t' op e c} (h : TargetScoped table Ds t t') (h' : ExprScoped table Ds e c) :
    StmtScoped Ds (.augment t op e) (.augment t' op c)
  | branch {Ds e c ss cs ss' cs'} (h : ExprScoped table Ds e c) (body : BlockScoped Ds ss cs)
    (orelse : BlockScoped Ds ss' cs') : StmtScoped Ds (.branch e ss ss') (.branch c cs cs')
  | loop {Ds t t' e c ss cs} (target : TargetScoped table Ds t t') (h : ExprScoped table Ds e c)
    (body : BlockScoped Ds ss cs) : StmtScoped Ds (.loop t e ss) (.loop t' c cs)
  | leaveLoop {Ds} : StmtScoped Ds .leaveLoop .leaveLoop
  | nextRound {Ds} : StmtScoped Ds .nextRound .nextRound
  | pass {Ds} : StmtScoped Ds .pass .pass
  | giveBackNone {Ds} : StmtScoped Ds (.giveBack Option.none) (.giveBack Option.none)
  | giveBack {Ds e c} (h : ExprScoped table Ds e c) :
    StmtScoped Ds (.giveBack (some e)) (.giveBack (some c))
  /-- The name and the defaults stand outside of the new function, the body inside. -/
  | define {Ds x scope params ss id f cs defaults} (name : Lexical Ds x scope)
    (heads : (Definition.named x params ss).Heads table Ds id f) (code : f.body = .block cs)
    (values : DefaultsScoped table Ds params defaults)
    (body : BlockScoped (.named x params ss :: Ds) ss cs) :
    StmtScoped Ds (.define x params ss) (.define ⟨x, scope⟩ id defaults)

/-- Statements inside some definitions and their code. -/
inductive BlockScoped : List Definition → List Stmt → List Code.Stmt → Prop where
  | nil {Ds} : BlockScoped Ds [] []
  | cons {Ds s c ss cs} (head : StmtScoped Ds s c) (tail : BlockScoped Ds ss cs) :
    BlockScoped Ds (s :: ss) (c :: cs)

end

end relation

/-! ## The names that resolution collects -/

mutual

theorem Target.mem_names {x : String} : (t : Target) → (x ∈ t.names ↔ t.Assigns x)
  | .name y => by
    simp only [Target.names, List.mem_singleton]
    exact ⟨fun h => h ▸ .name, fun h => by cases h; rfl⟩
  | .index .. => ⟨fun h => (by cases h), fun h => (by cases h)⟩
  | .tuple ts => by
    rw [Target.names, mem_targetNames]
    exact ⟨fun ⟨_, mem, h⟩ => .tuple mem h, fun h => by cases h with | tuple mem h => exact ⟨_, mem, h⟩⟩

theorem mem_targetNames {x : String} :
    (ts : List Target) → (x ∈ targetNames ts ↔ ∃ t ∈ ts, t.Assigns x)
  | [] => by simp [targetNames]
  | t :: ts => by simp [targetNames, t.mem_names, mem_targetNames ts]

end

mutual

theorem Stmt.mem_assigned {x : String} : (s : Stmt) → (x ∈ s.assigned ↔ s.Assigns x)
  | .expr _ | .leaveLoop | .nextRound | .pass | .giveBack _ =>
    ⟨fun h => (by cases h), fun h => (by cases h)⟩
  | .assign target _ => by
    rw [Stmt.assigned, target.mem_names]
    exact ⟨.assign, fun h => by cases h with | assign h => exact h⟩
  | .augment target _ _ => by
    rw [Stmt.assigned, target.mem_names]
    exact ⟨.augment, fun h => by cases h with | augment h => exact h⟩
  | .branch _ body orelse => by
    rw [Stmt.assigned, List.mem_append, mem_assignedNames body, mem_assignedNames orelse]
    constructor
    · rintro (⟨_, mem, h⟩ | ⟨_, mem, h⟩)
      · exact .body mem h
      · exact .orelse mem h
    · intro h
      cases h with
      | body mem h => exact .inl ⟨_, mem, h⟩
      | orelse mem h => exact .inr ⟨_, mem, h⟩
  | .loop target _ body => by
    rw [Stmt.assigned, List.mem_append, target.mem_names, mem_assignedNames body]
    constructor
    · rintro (h | ⟨_, mem, h⟩)
      · exact .loopTarget h
      · exact .loopBody mem h
    · intro h
      cases h with
      | loopTarget h => exact .inl h
      | loopBody mem h => exact .inr ⟨_, mem, h⟩
  | .define name _ _ => by
    simp only [Stmt.assigned, List.mem_singleton]
    exact ⟨fun h => h ▸ .define, fun h => by cases h; rfl⟩

theorem mem_assignedNames {x : String} :
    (ss : List Stmt) → (x ∈ assignedNames ss ↔ ∃ s ∈ ss, s.Assigns x)
  | [] => by simp [assignedNames]
  | s :: ss => by simp [assignedNames, s.mem_assigned, mem_assignedNames ss]

end

namespace Definition

/-- The names that a definition binds, as resolution collects them. -/
def bound (D : Definition) : List String := D.params.filterMap (·.name?) ++ assignedNames D.stmts

theorem mem_bound {D : Definition} {x : String} : x ∈ D.bound ↔ D.Binds x := by
  simp [bound, Binds, mem_assignedNames]

end Definition

open Code (Extends Resolving Scopes scopeOf)

/-- The names bound around a piece of program. -/
def scopesOf (Ds : List Definition) : Scopes := Ds.map (·.bound)

/-- Resolution puts each name in its lexical scope. -/
theorem lexical_scopeOf (Ds : List Definition) (x : String) : Lexical Ds x (scopeOf (scopesOf Ds) x) := by
  unfold scopeOf
  cases hi : (scopesOf Ds).findIdx? (·.contains x) with
  | none =>
    have unbound : ∀ D ∈ Ds, ¬ D.Binds x := by
      simpa [scopesOf, List.findIdx?_eq_none_iff, Definition.mem_bound] using hi
    exact {
      own := by
        simp only [reduceCtorEq, false_iff]
        rintro ⟨D, hD, hx⟩
        exact unbound D (List.mem_of_mem_head? hD) hx
      outer k := by
        simp only [reduceCtorEq, false_iff]
        rintro ⟨-, ⟨D, hD, hx⟩, -⟩
        exact unbound D (List.mem_of_getElem? hD) hx
      global := by simpa using unbound }
  | some i =>
    obtain ⟨hlt, hx, hleast⟩ := List.findIdx?_eq_some_iff_getElem.1 hi
    have binds : ∃ D ∈ Ds[i]?, D.Binds x := by
      have hD : i < Ds.length := by simpa [scopesOf] using hlt
      exact ⟨Ds[i], List.getElem?_eq_getElem hD, by
        simpa [scopesOf, Definition.mem_bound] using hx⟩
    have least : ∀ j < i, ∀ D ∈ Ds[j]?, ¬ D.Binds x := by
      intro j hj D hD hx
      obtain ⟨hlt', rfl⟩ := List.getElem?_eq_some_iff.1 hD
      have := hleast j hj
      simp [scopesOf, Definition.mem_bound] at this
      exact this hx
    have notGlobal : ¬ ∀ D ∈ Ds, ¬ D.Binds x := by
      obtain ⟨D, hD, hx⟩ := binds
      exact fun unbound => unbound D (List.mem_of_getElem? hD) hx
    cases i with
    | zero =>
      exact {
        own := by simpa [List.head?_eq_getElem?] using binds
        outer k := by
          simp only [reduceCtorEq, false_iff]
          rintro ⟨hk, -, unbound⟩
          obtain ⟨D, hD, hx⟩ := binds
          exact unbound 0 hk D hD hx
        global := by simpa using notGlobal }
    | succ i =>
      exact {
        own := by
          simp only [reduceCtorEq, false_iff]
          rintro ⟨D, hD, hx⟩
          exact least 0 (Nat.succ_pos i) D (by rwa [← List.head?_eq_getElem?]) hx
        outer k := by
          simp only [Code.Scope.outer.injEq]
          constructor
          · rintro rfl
            exact ⟨Nat.succ_pos i, binds, least⟩
          · rintro ⟨hk, ⟨D', hD', hx'⟩, least'⟩
            obtain ⟨D, hD, hx⟩ := binds
            -- Of two levels that bind the name, neither is below the other.
            rcases Nat.lt_trichotomy (i + 1) k with hlt | heq | hlt
            · exact absurd hx (least' _ hlt D hD)
            · exact heq
            · exact absurd hx' (least _ hlt D' hD')
        global := by simpa using notGlobal }

/-! ## Resolution is lexical -/

/-- A step of resolution adds to the table of functions, and its result is in order with every table that holds
what the step leaves. -/
def Delivers {α : Type} (x : Resolving α) (R : Array Function → α → Prop) : Prop :=
  ∀ ⦃d a d'⦄, x d = .ok a d' → Extends d.functions d'.functions ∧
    ∀ ⦃table⦄, Extends d'.functions table → R table a

namespace Delivers

variable {α β : Type} {x : Resolving α} {R : Array Function → α → Prop}

theorem pure {a : α} (h : ∀ table, R table a) : Delivers (Pure.pure a) R := by
  intro d a d' hx
  cases hx
  exact ⟨Extends.refl _, fun table _ => h table⟩

theorem throw (e : Fault.Malformed) : Delivers (MonadExcept.throw e : Resolving α) R := by
  intro d a d' hx
  cases hx

theorem bind {f : α → Resolving β} {P : Array Function → β → Prop} (hx : Delivers x R)
    (hf : ∀ a, Delivers (f a) fun table b => R table a → P table b) : Delivers (x >>= f) P := by
  intro d b d' h
  simp only [Bind.bind, EStateM.bind] at h
  cases ha : x d with
  | error e d₁ => simp [ha] at h
  | ok a d₁ =>
    simp only [ha] at h
    obtain ⟨grows, holds⟩ := hx ha
    obtain ⟨grows', holds'⟩ := hf a h
    exact ⟨grows.trans grows', fun table ht => holds' ht (holds (grows'.trans ht))⟩

theorem imp {P : Array Function → α → Prop} (hx : Delivers x R) (h : ∀ table a, R table a → P table a) : Delivers x P :=
  fun _ _ _ hd => ⟨(hx hd).1, fun table ht => h table _ ((hx hd).2 ht)⟩

theorem learn (w : String) : Delivers (Resolving.learn w) fun _ _ => True := by
  intro d a d' hx
  cases hx
  exact ⟨Extends.refl _, fun _ _ => trivial⟩

theorem learnAll (ws : List String) : Delivers (Resolving.learnAll ws) fun _ _ => True := by
  induction ws with
  | nil => exact .pure fun _ => trivial
  | cons w ws ih => exact (learn w).bind fun _ _ _ _ h => ⟨(ih h).1, fun _ _ _ => trivial⟩

theorem addFunction (f : Function) : Delivers (Resolving.addFunction f) fun table id => table[id.index]? = some f := by
  intro d id d' hx
  cases hx
  exact ⟨Code.extends_of_toList (Array.toList_push ..), fun table ht => ht (by simp)⟩

theorem name (Ds : List Definition) (x : String) : Delivers (Resolving.name (scopesOf Ds) x)
    fun _ x' => x'.text = x ∧ Lexical Ds x x'.scope := by
  have lexical := lexical_scopeOf Ds x
  unfold scopeOf at lexical
  refine (learn x).bind fun _ => ?_
  cases hi : (scopesOf Ds).findIdx? (·.contains x) with
  | none =>
    simp only [hi] at lexical ⊢
    exact .pure fun _ _ => ⟨rfl, lexical⟩
  | some i =>
    cases i with
    | zero =>
      simp only [hi] at lexical ⊢
      exact .pure fun _ _ => ⟨rfl, lexical⟩
    | succ i =>
      simp only [hi] at lexical ⊢
      split
      · exact .throw _
      · exact .pure fun _ _ => ⟨rfl, lexical⟩

/-- A definition delivers its function, apart from the body, and what its defaults and its body deliver. -/
theorem definition {Ds : List Definition} (D : Definition) {defaults : Resolving (List Code.Expr)}
    {body : Scopes → Resolving Code.Body} {P : Array Function → List Code.Expr → Prop}
    {Q : Array Function → Code.Body → Prop} (hd : Delivers defaults P) (hb : Delivers (body (scopesOf (D :: Ds))) Q) :
    Delivers (Resolving.definition (scopesOf Ds) D.name D.params (assignedNames D.stmts) defaults body)
      fun table p => P table p.2 ∧ ∃ f, D.Heads table Ds p.1 f ∧ Q table f.body := by
  unfold Resolving.definition
  refine (learn D.name).bind fun _ => ?_
  cases hg : Code.ParamGroups.ofParams D.name D.params with
  | error e => exact .throw e
  | ok groups =>
    simp only [MonadExcept.ofExcept, pure_bind]
    refine hd.bind fun es => (learnAll _).bind fun _ => hb.bind fun b => (addFunction _).bind fun id =>
      .pure fun table found hbody _ hes _ => ⟨hes, _, ⟨found, rfl, ⟨groups, hg, rfl⟩, ?_⟩, hbody⟩
    cases Ds <;> simp [scopesOf]

end Delivers

mutual

theorem Expr.delivers_resolve (Ds : List Definition) : (e : Expr) →
    Delivers (e.resolve (scopesOf Ds)) fun table c => ExprScoped table Ds e c
  | .none => .pure fun _ => .none
  | .bool b => .pure fun _ => .bool
  | .int n => .pure fun _ => .int
  | .str s => (Delivers.learn s).bind fun _ => .pure fun _ _ => .str
  | .name x => (Delivers.name Ds x).bind fun x' => .pure fun _ h => by
    obtain ⟨text, scope⟩ := x'
    obtain ⟨rfl, lexical⟩ := h
    exact .name lexical
  | .list items => (delivers_resolveExprs Ds items).bind fun _ => .pure fun _ h => .list h
  | .tuple items => (delivers_resolveExprs Ds items).bind fun _ => .pure fun _ h => .tuple h
  | .dict entries => (delivers_resolveEntries Ds entries).bind fun _ => .pure fun _ h => .dict h
  | .index object index => (object.delivers_resolve Ds).bind fun _ =>
    (index.delivers_resolve Ds).bind fun _ => .pure fun _ h' h => .index h h'
  | .attr object attr => (object.delivers_resolve Ds).bind fun _ =>
    (Delivers.learn attr).bind fun _ => .pure fun _ _ h => .attr h
  | .call callee args => (callee.delivers_resolve Ds).bind fun _ =>
    (delivers_resolveArgs Ds false args).bind fun _ => .pure fun _ h' h => .call h h'
  | .binary left op right => (left.delivers_resolve Ds).bind fun _ =>
    (right.delivers_resolve Ds).bind fun _ => .pure fun _ h' h => .binary h h'
  | .compare left op right => (left.delivers_resolve Ds).bind fun _ =>
    (right.delivers_resolve Ds).bind fun _ => .pure fun _ h' h => .compare h h'
  | .not operand => (operand.delivers_resolve Ds).bind fun _ => .pure fun _ h => .not h
  | .neg operand => (operand.delivers_resolve Ds).bind fun _ => .pure fun _ h => .neg h
  | .and left right => (left.delivers_resolve Ds).bind fun _ =>
    (right.delivers_resolve Ds).bind fun _ => .pure fun _ h' h => .and h h'
  | .or left right => (left.delivers_resolve Ds).bind fun _ =>
    (right.delivers_resolve Ds).bind fun _ => .pure fun _ h' h => .or h h'
  | .cond test body orelse => (test.delivers_resolve Ds).bind fun _ =>
    (body.delivers_resolve Ds).bind fun _ => (orelse.delivers_resolve Ds).bind fun _ =>
      .pure fun _ h₂ h₁ h => .cond h h₁ h₂
  | .lambda params body => by
    let D := Definition.lambda params body
    have hbody : Delivers (do return Code.Body.expr (← body.resolve (scopesOf (D :: Ds)))) fun table b =>
        ∃ c, b = .expr c ∧ ExprScoped table (D :: Ds) body c :=
      (body.delivers_resolve (D :: Ds)).bind fun c => .pure fun _ h => ⟨c, rfl, h⟩
    refine (Delivers.definition D (delivers_resolveDefaults Ds params) hbody).bind fun p =>
      .pure fun table h => ?_
    obtain ⟨values, f, heads, c, code, inner⟩ := h
    exact .lambda heads code values inner

theorem delivers_resolveExprs (Ds : List Definition) : (es : List Expr) →
    Delivers (resolveExprs (scopesOf Ds) es) fun table cs => ExprsScoped table Ds es cs
  | [] => .pure fun _ => .nil
  | e :: es => (e.delivers_resolve Ds).bind fun _ => (delivers_resolveExprs Ds es).bind fun _ =>
    .pure fun _ h' h => .cons h h'

theorem delivers_resolveEntries (Ds : List Definition) : (es : List (Expr × Expr)) →
    Delivers (resolveEntries (scopesOf Ds) es) fun table cs => EntriesScoped table Ds es cs
  | [] => .pure fun _ => .nil
  | (k, v) :: es => (k.delivers_resolve Ds).bind fun _ => (v.delivers_resolve Ds).bind fun _ =>
    (delivers_resolveEntries Ds es).bind fun _ => .pure fun _ h hv hk => .cons hk hv h

theorem delivers_resolveArgs (Ds : List Definition) (keywordSeen : Bool) : (args : List Arg) →
    Delivers (resolveArgs (scopesOf Ds) keywordSeen args) fun table cs => ArgsScoped table Ds args cs
  | [] => .pure fun _ => .nil
  | .positional value :: args => by
    rw [resolveArgs]
    cases keywordSeen with
    | true => exact .throw _
    | false =>
      exact (value.delivers_resolve Ds).bind fun _ => (delivers_resolveArgs Ds _ args).bind fun _ =>
        .pure fun _ h' h => .positional h h'
  | .keyword x value :: args => (Delivers.learn x).bind fun _ =>
    (value.delivers_resolve Ds).bind fun _ => (delivers_resolveArgs Ds _ args).bind fun _ =>
      .pure fun _ h' h _ => .keyword h h'
  | .spread value :: args => (value.delivers_resolve Ds).bind fun _ =>
    (delivers_resolveArgs Ds _ args).bind fun _ => .pure fun _ h' h => .spread h h'
  | .spreadKeywords value :: args => (value.delivers_resolve Ds).bind fun _ =>
    (delivers_resolveArgs Ds _ args).bind fun _ => .pure fun _ h' h => .spreadKeywords h h'

theorem delivers_resolveDefaults (Ds : List Definition) : (params : List Param) →
    Delivers (resolveDefaults (scopesOf Ds) params) fun table cs => DefaultsScoped table Ds params cs
  | [] => .pure fun _ => .nil
  | .defaulted _ value :: params => (value.delivers_resolve Ds).bind fun _ =>
    (delivers_resolveDefaults Ds params).bind fun _ => .pure fun _ h' h => .defaulted h h'
  | .required _ :: params => (delivers_resolveDefaults Ds params).imp fun _ _ h => .required h
  | .rest _ :: params => (delivers_resolveDefaults Ds params).imp fun _ _ h => .rest h
  | .bareStar :: params => (delivers_resolveDefaults Ds params).imp fun _ _ h => .bareStar h
  | .keywords _ :: params => (delivers_resolveDefaults Ds params).imp fun _ _ h => .keywords h

end

mutual

theorem Target.delivers_resolve (Ds : List Definition) : (t : Target) →
    Delivers (t.resolve (scopesOf Ds)) fun table c => TargetScoped table Ds t c
  | .name x => (Delivers.name Ds x).bind fun x' => .pure fun _ h => by
    obtain ⟨text, scope⟩ := x'
    obtain ⟨rfl, lexical⟩ := h
    exact .name lexical
  | .index object index => (object.delivers_resolve Ds).bind fun _ =>
    (index.delivers_resolve Ds).bind fun _ => .pure fun _ h' h => .index h h'
  | .tuple targets => (delivers_resolveTargets Ds targets).bind fun _ => .pure fun _ h => .tuple h

theorem delivers_resolveTargets (Ds : List Definition) : (ts : List Target) →
    Delivers (resolveTargets (scopesOf Ds) ts) fun table cs => TargetsScoped table Ds ts cs
  | [] => .pure fun _ => .nil
  | t :: ts => (t.delivers_resolve Ds).bind fun _ => (delivers_resolveTargets Ds ts).bind fun _ =>
    .pure fun _ h' h => .cons h h'

end

mutual

theorem Stmt.delivers_resolve (Ds : List Definition) (inLoop : Bool) : (s : Stmt) →
    Delivers (s.resolve (scopesOf Ds) inLoop) fun table c => StmtScoped table Ds s c
  | .expr e => (e.delivers_resolve Ds).bind fun _ => .pure fun _ h => .expr h
  | .assign target value => (value.delivers_resolve Ds).bind fun _ =>
    (target.delivers_resolve Ds).bind fun _ => .pure fun _ h h' => .assign h h'
  | .augment (.tuple ts) op value => .throw _
  | .augment (.name x) op value => (value.delivers_resolve Ds).bind fun _ =>
    (Target.delivers_resolve Ds (.name x)).bind fun _ => .pure fun _ h h' => .augment h h'
  | .augment (.index object index) op value => (value.delivers_resolve Ds).bind fun _ =>
    (Target.delivers_resolve Ds (.index object index)).bind fun _ =>
      .pure fun _ h h' => .augment h h'
  | .branch test body orelse => (test.delivers_resolve Ds).bind fun _ =>
    (delivers_resolveBlock Ds inLoop body).bind fun _ =>
      (delivers_resolveBlock Ds inLoop orelse).bind fun _ => .pure fun _ h₂ h₁ h => .branch h h₁ h₂
  | .loop target iter body => (iter.delivers_resolve Ds).bind fun _ =>
    (target.delivers_resolve Ds).bind fun _ => (delivers_resolveBlock Ds true body).bind fun _ =>
      .pure fun _ h' h t => .loop h t h'
  | .leaveLoop => by
    cases inLoop
    · exact .throw _
    · exact .pure fun _ => .leaveLoop
  | .nextRound => by
    cases inLoop
    · exact .throw _
    · exact .pure fun _ => .nextRound
  | .pass => .pure fun _ => .pass
  | .giveBack value => by
    rw [Stmt.resolve.eq_def]
    dsimp only
    split
    · exact .throw _
    · cases value with
      | none => exact .pure fun _ => .giveBackNone
      | some e => exact (e.delivers_resolve Ds).bind fun _ => .pure fun _ h => .giveBack h
  | .define name params body => by
    let D := Definition.named name params body
    have hbody : Delivers (do return Code.Body.block (← resolveBlock (scopesOf (D :: Ds)) false body))
        fun table b => ∃ cs, b = .block cs ∧ BlockScoped table (D :: Ds) body cs :=
      (delivers_resolveBlock (D :: Ds) false body).bind fun cs => .pure fun _ h => ⟨cs, rfl, h⟩
    refine (Delivers.definition D (delivers_resolveDefaults Ds params) hbody).bind fun p =>
      (Delivers.name Ds name).bind fun x => .pure fun table hx h => ?_
    obtain ⟨text, scope⟩ := x
    obtain ⟨rfl, lexical⟩ := hx
    obtain ⟨values, f, heads, cs, code, inner⟩ := h
    exact .define lexical heads code values inner

theorem delivers_resolveBlock (Ds : List Definition) (inLoop : Bool) : (ss : List Stmt) →
    Delivers (resolveBlock (scopesOf Ds) inLoop ss) fun table cs => BlockScoped table Ds ss cs
  | [] => .pure fun _ => .nil
  | s :: ss => (s.delivers_resolve Ds inLoop).bind fun _ =>
    (delivers_resolveBlock Ds inLoop ss).bind fun _ => .pure fun _ h' h => .cons h h'

end

end Program

end Scriptlet
