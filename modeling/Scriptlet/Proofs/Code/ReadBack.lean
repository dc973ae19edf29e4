import Mathlib.Data.List.Induction
import Scriptlet.Proofs.Code.Growth
import Scriptlet.Proofs.Code.ParamOrder

/-!
# Reading programs back

Resolved code holds the texts of its names and literals, and it refers to definitions by their places in the table of
functions. Reading it back finds the place of every text in the lexicon and takes the word that stands there, forgets
the scopes, and puts each definition where the code refers to it: its parameters come from the signature in the table
and from the defaults beside the reference, its body from the table. So code with a word that the lexicon does not
know is not read. The body of a function refers only to functions before it, so the table is read from its beginning
on.

Whatever resolution makes of a program is read back as this program, also after more has been added to the lexicon
and to the table.
-/

namespace Scriptlet

/-- The body of a definition. -/
inductive Program.Body where
  | block (stmts : List Program.Stmt)
  | expr (e : Program.Expr)

namespace Code

open Fault (Malformed)
open Program (Param paramDefaults)

/-! ## Words -/

namespace Lexicon

/-- The place of a word. -/
def place? (l : Lexicon) (w : String) : Option Nat := l.words.idxOf? w

/-- The word at a place. -/
def word? (l : Lexicon) (i : Nat) : Option String := l.words[i]?

/-- The word that stands at the place of a text, if the lexicon knows it. -/
def spelling (l : Lexicon) (w : String) : Option String := (l.place? w).bind l.word?

theorem spelling_eq {l : Lexicon} {w : String} (h : w ∈ l.words) : l.spelling w = some w := by
  obtain ⟨i, hi⟩ : ∃ i, l.place? w = some i := by
    rw [← Option.isSome_iff_exists, place?, List.isSome_idxOf?]
    exact h
  obtain ⟨hlt, hw, -⟩ := List.findIdx?_eq_some_iff_getElem.1 hi
  rw [spelling, hi, Option.bind_some, word?, List.getElem?_eq_getElem hlt, eq_of_beq hw]

/-- Looks up the name of a parameter. -/
def spellParam (l : Lexicon) : Param → Option Param
  | .required x => (l.spelling x).map .required
  | .defaulted x e => (l.spelling x).map (.defaulted · e)
  | .rest x => (l.spelling x).map .rest
  | .bareStar => some .bareStar
  | .keywords x => (l.spelling x).map .keywords

theorem mapM_spellParam {l : Lexicon} {params : List Param}
    (h : ∀ x ∈ params.filterMap (·.name?), l.spelling x = some x) : params.mapM l.spellParam = some params := by
  induction params with
  | nil => rfl
  | cons p params ih =>
    have tail := ih fun x hx => h x (by
      obtain ⟨q, hq, hx⟩ := List.mem_filterMap.1 hx
      exact List.mem_filterMap.2 ⟨q, List.mem_cons_of_mem _ hq, hx⟩)
    have head : l.spellParam p = some p := by
      have known {x : String} (hx : p.name? = some x) : l.spelling x = some x :=
        h x (List.mem_filterMap.2 ⟨p, List.mem_cons_self, hx⟩)
      cases p with
      | bareStar => rfl
      | required x => simp [spellParam, known rfl]
      | defaulted x e => simp [spellParam, known rfl]
      | rest x => simp [spellParam, known rfl]
      | keywords x => simp [spellParam, known rfl]
    simp [List.mapM_cons, head, tail]

end Lexicon

/-! ## Trees -/

/-- A definition of the table that has been read back. The defaults are missing: they stand where the function is
made. -/
structure Source where
  name : String
  signature : Signature
  body : Program.Body

/-- The parameter list of a definition with given defaults. -/
def Source.params (l : Lexicon) (s : Source) (defaults : List Program.Expr) : Option (List Param) :=
  (s.signature.params defaults).mapM l.spellParam

/-- The definitions of a table, in its order; none for a function that cannot be read back. -/
abbrev Sources := List (Option Source)

section trees

variable (l : Lexicon) (defs : Sources)

mutual

/-- The expression that code was made of. -/
def Expr.readBack : Expr → Option Program.Expr
  | .literal .none => some .none
  | .literal (.bool b) => some (.bool b)
  | .literal (.int n) => some (.int n)
  | .literal (.str s) => do return .str (← l.spelling s)
  | .name x => do return .name (← l.spelling x.text)
  | .list items => do return .list (← readBackExprs items)
  | .tuple items => do return .tuple (← readBackExprs items)
  | .dict entries => do return .dict (← readBackEntries entries)
  | .index object index => do return .index (← object.readBack) (← index.readBack)
  | .attr object attr => do return .attr (← object.readBack) (← l.spelling attr)
  | .call callee args => do return .call (← callee.readBack) (← readBackArgs args)
  | .binary left op right => do return .binary (← left.readBack) op (← right.readBack)
  | .compare left op right => do return .compare (← left.readBack) op (← right.readBack)
  | .not operand => do return .not (← operand.readBack)
  | .neg operand => do return .neg (← operand.readBack)
  | .and left right => do return .and (← left.readBack) (← right.readBack)
  | .or left right => do return .or (← left.readBack) (← right.readBack)
  | .cond test body orelse => do
    return .cond (← test.readBack) (← body.readBack) (← orelse.readBack)
  | .function id defaults => do
    let s ← defs[id.index]?.join
    let params ← s.params l (← readBackExprs defaults)
    match s.body with
    | .expr e => if s.name = "lambda" then some (.lambda params e) else none
    | .block _ => none

def readBackExprs : List Expr → Option (List Program.Expr)
  | [] => some []
  | e :: es => do return (← e.readBack) :: (← readBackExprs es)

def readBackEntries : List (Expr × Expr) → Option (List (Program.Expr × Program.Expr))
  | [] => some []
  | (k, v) :: es => do return (← k.readBack, ← v.readBack) :: (← readBackEntries es)

def readBackArgs : List Arg → Option (List Program.Arg)
  | [] => some []
  | .positional e :: args => do return .positional (← e.readBack) :: (← readBackArgs args)
  | .keyword x e :: args => do
    return .keyword (← l.spelling x) (← e.readBack) :: (← readBackArgs args)
  | .spread e :: args => do return .spread (← e.readBack) :: (← readBackArgs args)
  | .spreadKeywords e :: args => do
    return .spreadKeywords (← e.readBack) :: (← readBackArgs args)

end

mutual

/-- The target that code was made of. -/
def Target.readBack : Target → Option Program.Target
  | .name x => do return .name (← l.spelling x.text)
  | .index object index => do return .index (← object.readBack l defs) (← index.readBack l defs)
  | .tuple targets => do return .tuple (← readBackTargets targets)

def readBackTargets : List Target → Option (List Program.Target)
  | [] => some []
  | t :: ts => do return (← t.readBack) :: (← readBackTargets ts)

end

mutual

/-- The statement that code was made of. A definition stands under the name that it has in the table. -/
def Stmt.readBack : Stmt → Option Program.Stmt
  | .expr e => do return .expr (← e.readBack l defs)
  | .assign target e => do return .assign (← target.readBack l defs) (← e.readBack l defs)
  | .augment target op e => do return .augment (← target.readBack l defs) op (← e.readBack l defs)
  | .branch test body orelse => do
    return .branch (← test.readBack l defs) (← readBackBlock body) (← readBackBlock orelse)
  | .loop target iter body => do
    return .loop (← target.readBack l defs) (← iter.readBack l defs) (← readBackBlock body)
  | .leaveLoop => some .leaveLoop
  | .nextRound => some .nextRound
  | .pass => some .pass
  | .giveBack none => some (.giveBack none)
  | .giveBack (some e) => do return .giveBack (some (← e.readBack l defs))
  | .define x id defaults => do
    let s ← defs[id.index]?.join
    let name ← l.spelling x.text
    let params ← s.params l (← readBackExprs l defs defaults)
    match s.body with
    | .block stmts => if s.name = name then some (.define name params stmts) else none
    | .expr _ => none

def readBackBlock : List Stmt → Option (List Program.Stmt)
  | [] => some []
  | s :: ss => do return (← s.readBack) :: (← readBackBlock ss)

end

/-- The body that code was made of. -/
def Body.readBack : Body → Option Program.Body
  | .block stmts => do return .block (← readBackBlock l defs stmts)
  | .expr e => do return .expr (← e.readBack l defs)

/-- The definition that a function was made of, where `defs` are the definitions before it. -/
def Function.readBack (f : Function) : Option Source := do
  return { name := ← l.spelling f.name, signature := f.signature, body := ← f.body.readBack l defs }

end trees

/-! ## Tables -/

/-- Reads back the functions of a table, each with the ones before it. -/
def readBackTable (l : Lexicon) (functions : List Function) : Sources :=
  functions.foldl (fun defs f => defs ++ [f.readBack l defs]) []

theorem readBackTable_snoc (l : Lexicon) (functions : List Function) (f : Function) :
    readBackTable l (functions ++ [f]) =
      readBackTable l functions ++ [f.readBack l (readBackTable l functions)] := by
  simp [readBackTable]

theorem length_readBackTable (l : Lexicon) (functions : List Function) :
    (readBackTable l functions).length = functions.length := by
  induction functions using List.reverseRecOn with
  | nil => rfl
  | append_singleton fs f ih => simp [readBackTable_snoc, ih]

/-- More functions do not change how the ones before them are read back. -/
theorem prefix_readBackTable (l : Lexicon) {functions functions' : List Function}
    (h : functions <+: functions') : readBackTable l functions <+: readBackTable l functions' := by
  obtain ⟨new, rfl⟩ := h
  induction new using List.reverseRecOn with
  | nil => simp
  | append_singleton fs f ih =>
    rw [← List.append_assoc, readBackTable_snoc]
    exact ih.trans (List.prefix_append _ _)

/-- A function is read back with the functions before it. -/
theorem getElem?_readBackTable (l : Lexicon) {before table : List Function} {f : Function}
    (h : before ++ [f] <+: table) :
    (readBackTable l table)[before.length]? = some (f.readBack l (readBackTable l before)) := by
  have there : (readBackTable l (before ++ [f]))[before.length]? =
      some (f.readBack l (readBackTable l before)) := by
    rw [readBackTable_snoc, List.getElem?_append_right (Nat.le_of_eq (length_readBackTable l before)),
      length_readBackTable, Nat.sub_self, List.getElem?_cons_zero]
  have inside : before.length < (readBackTable l (before ++ [f])).length := by
    rw [length_readBackTable]
    simp
  obtain ⟨after, hafter⟩ := prefix_readBackTable l h
  rw [← hafter, List.getElem?_append_left inside, there]

namespace Draft

/-- The definitions of a draft. -/
def sources (d : Draft) : Sources := readBackTable d.lexicon d.functions.toList

/-- The expression that code was made of, read with a draft. -/
def readBackExpr (d : Draft) (c : Expr) : Option Program.Expr := c.readBack d.lexicon d.sources

/-- The program that code was made of, read with a draft. -/
def readBackProgram (d : Draft) (c : List Stmt) : Option (List Program.Stmt) :=
  readBackBlock d.lexicon d.sources c

end Draft

/-! ## Steps of resolution -/

/-- A step of resolution adds to the draft, and its result is in order with every draft that continues the one it
leaves. -/
def Settles {α : Type} (x : Resolving α) (R : Draft → α → Prop) : Prop :=
  ∀ ⦃d a d'⦄, x d = .ok a d' → d.Le d' ∧ ∀ ⦃later⦄, d'.Le later → R later a

namespace Settles

variable {α β : Type} {x : Resolving α} {R : Draft → α → Prop}

theorem pure {a : α} (h : ∀ later, R later a) : Settles (Pure.pure a) R := by
  intro d a d' hx
  cases hx
  exact ⟨.refl _, fun later _ => h later⟩

theorem throw (e : Malformed) : Settles (MonadExcept.throw e : Resolving α) R := by
  intro d a d' hx
  cases hx

theorem bind {f : α → Resolving β} {P : Draft → β → Prop} (hx : Settles x R)
    (hf : ∀ a, Settles (f a) fun later b => R later a → P later b) : Settles (x >>= f) P := by
  intro d b d' h
  simp only [Bind.bind, EStateM.bind] at h
  cases ha : x d with
  | error e d₁ => simp [ha] at h
  | ok a d₁ =>
    simp only [ha] at h
    obtain ⟨grows, holds⟩ := hx ha
    obtain ⟨grows', holds'⟩ := hf a h
    exact ⟨grows.trans grows', fun later hl => holds' hl (holds (grows'.trans hl))⟩

theorem imp {P : Draft → α → Prop} (hx : Settles x R) (h : ∀ later a, R later a → P later a) : Settles x P :=
  fun _ _ _ hd => ⟨(hx hd).1, fun later hl => h later _ ((hx hd).2 hl)⟩

theorem learn (w : String) : Settles (Resolving.learn w) fun later _ => later.lexicon.spelling w = some w := by
  intro d a d' hx
  cases hx
  refine ⟨⟨d.lexicon.prefix_learn w, List.prefix_refl _⟩, fun later hl => Lexicon.spelling_eq ?_⟩
  exact hl.words.subset (d.lexicon.mem_learn w)

theorem learnAll (ws : List String) :
    Settles (Resolving.learnAll ws) fun later _ => ∀ w ∈ ws, later.lexicon.spelling w = some w := by
  induction ws with
  | nil => exact .pure fun _ w hw => by cases hw
  | cons w ws ih =>
    refine (learn w).bind fun _ => ih.imp fun later _ tail head => ?_
    exact List.forall_mem_cons.2 ⟨head, tail⟩

theorem name (scopes : Scopes) (x : String) : Settles (Resolving.name scopes x)
    fun later x' => x'.text = x ∧ later.lexicon.spelling x = some x := by
  refine (learn x).bind fun _ => ?_
  split
  · exact .pure fun _ known => ⟨rfl, known⟩
  · exact .pure fun _ known => ⟨rfl, known⟩
  · split
    · exact .throw _
    · exact .pure fun _ known => ⟨rfl, known⟩

/-- A function that goes to the table after its body is read back from there, if its body is. -/
theorem addFunction {b : Resolving Body} {body : Program.Body} (name : String) (signature : Signature)
    (nested : Bool) (hb : Settles b fun later c => c.readBack later.lexicon later.sources = some body) :
    Settles (do let body ← b; Resolving.addFunction { name, signature, body, nested })
      fun later id => later.lexicon.spelling name = some name →
        later.sources[id.index]?.join = some ⟨name, signature, body⟩ := by
  intro d id d' h
  simp only [Bind.bind, EStateM.bind] at h
  cases hc : b d with
  | error e d₁ => simp [hc] at h
  | ok c d₁ =>
    simp only [hc] at h
    cases h
    obtain ⟨grows, holds⟩ := hb hc
    refine ⟨⟨grows.words, grows.functions.trans ?_⟩, fun later hl known => ?_⟩
    · simp [Array.toList_push]
    · -- The functions before the new one are those that its body was resolved with.
      have before := @holds ⟨later.lexicon, d₁.functions⟩ ⟨hl.words, List.prefix_refl _⟩
      have there := hl.functions
      simp only [Array.toList_push] at there
      rw [Draft.sources, ← Array.length_toList, getElem?_readBackTable _ there, Option.join_some,
        Function.readBack, known, Option.bind_eq_bind, Option.bind_some]
      simp only [Draft.sources] at before
      rw [before]
      rfl

/-- A definition can be put together again where it is made. -/
theorem definition {scopes : Scopes} {name : String} {params : List Param} {assigned : List String}
    {defaults : Resolving (List Expr)} {body : Scopes → Resolving Body} {source : Program.Body}
    (hd : Settles defaults fun later cs =>
      readBackExprs later.lexicon later.sources cs = some ((paramDefaults params).map Prod.snd))
    (hb : ∀ inner, Settles (body inner) fun later c =>
      c.readBack later.lexicon later.sources = some source) :
    Settles (Resolving.definition scopes name params assigned defaults body) fun later p =>
      ∃ s, later.sources[p.1.index]?.join = some s ∧ s.name = name ∧ s.body = source ∧
        (readBackExprs later.lexicon later.sources p.2).bind (s.params later.lexicon) = some params := by
  unfold Resolving.definition
  refine (learn name).bind fun _ => ?_
  cases hg : ParamGroups.ofParams name params with
  | error e => exact .throw e
  | ok groups =>
    simp only [MonadExcept.ofExcept, pure_bind]
    refine hd.bind fun cs => (learnAll _).bind fun _ => ?_
    rw [← bind_assoc]
    refine (addFunction name (.ofGroups groups) _ (hb _)).bind fun id => .pure ?_
    intro later there words values known
    refine ⟨_, there known, rfl, rfl, ?_⟩
    rw [values, Option.bind_some, Source.params, Signature.params_ofGroups hg]
    exact Lexicon.mapM_spellParam fun x hx => words x (List.mem_append_left _ hx)

end Settles

end Code

/-! ## Programs -/

namespace Program

open Code (Draft Scopes Settles)

mutual

theorem Expr.settles_resolve (scopes : Scopes) : (e : Expr) →
    Settles (e.resolve scopes) fun later c => c.readBack later.lexicon later.sources = some e
  | .none => .pure fun _ => rfl
  | .bool b => .pure fun _ => rfl
  | .int n => .pure fun _ => rfl
  | .str s => (Settles.learn s).bind fun _ => .pure fun _ known => by
    simp [Code.Expr.readBack, known]
  | .name x => (Settles.name scopes x).bind fun _ => .pure fun _ h => by
    simp [Code.Expr.readBack, h.1, h.2]
  | .list items => (settles_resolveExprs scopes items).bind fun _ => .pure fun _ h => by
    simp [Code.Expr.readBack, h]
  | .tuple items => (settles_resolveExprs scopes items).bind fun _ => .pure fun _ h => by
    simp [Code.Expr.readBack, h]
  | .dict entries => (settles_resolveEntries scopes entries).bind fun _ => .pure fun _ h => by
    simp [Code.Expr.readBack, h]
  | .index object index => (object.settles_resolve scopes).bind fun _ =>
    (index.settles_resolve scopes).bind fun _ => .pure fun _ hi ho => by
      simp [Code.Expr.readBack, ho, hi]
  | .attr object attr => (object.settles_resolve scopes).bind fun _ =>
    (Settles.learn attr).bind fun _ => .pure fun _ known ho => by
      simp [Code.Expr.readBack, ho, known]
  | .call callee args => (callee.settles_resolve scopes).bind fun _ =>
    (settles_resolveArgs scopes false args).bind fun _ => .pure fun _ ha hc => by
      simp [Code.Expr.readBack, hc, ha]
  | .binary left op right => (left.settles_resolve scopes).bind fun _ =>
    (right.settles_resolve scopes).bind fun _ => .pure fun _ hr hl => by
      simp [Code.Expr.readBack, hl, hr]
  | .compare left op right => (left.settles_resolve scopes).bind fun _ =>
    (right.settles_resolve scopes).bind fun _ => .pure fun _ hr hl => by
      simp [Code.Expr.readBack, hl, hr]
  | .not operand => (operand.settles_resolve scopes).bind fun _ => .pure fun _ h => by
    simp [Code.Expr.readBack, h]
  | .neg operand => (operand.settles_resolve scopes).bind fun _ => .pure fun _ h => by
    simp [Code.Expr.readBack, h]
  | .and left right => (left.settles_resolve scopes).bind fun _ =>
    (right.settles_resolve scopes).bind fun _ => .pure fun _ hr hl => by
      simp [Code.Expr.readBack, hl, hr]
  | .or left right => (left.settles_resolve scopes).bind fun _ =>
    (right.settles_resolve scopes).bind fun _ => .pure fun _ hr hl => by
      simp [Code.Expr.readBack, hl, hr]
  | .cond test body orelse => (test.settles_resolve scopes).bind fun _ =>
    (body.settles_resolve scopes).bind fun _ => (orelse.settles_resolve scopes).bind fun _ =>
      .pure fun _ ho hb ht => by simp [Code.Expr.readBack, ht, hb, ho]
  | .lambda params body => by
    have inside (inner : Scopes) : Settles (do return Code.Body.expr (← body.resolve inner))
        fun later c => c.readBack later.lexicon later.sources = some (.expr body) :=
      (body.settles_resolve inner).bind fun _ => .pure fun _ h => by simp [Code.Body.readBack, h]
    refine (Settles.definition (settles_resolveDefaults scopes params) inside).bind fun p => .pure ?_
    rintro later ⟨s, there, name, source, whole⟩
    obtain ⟨values, hv, hp⟩ := Option.bind_eq_some_iff.1 whole
    simp [Code.Expr.readBack, there, hv, hp, source, name]

theorem settles_resolveExprs (scopes : Scopes) : (es : List Expr) →
    Settles (resolveExprs scopes es) fun later cs =>
      Code.readBackExprs later.lexicon later.sources cs = some es
  | [] => .pure fun _ => rfl
  | e :: es => (e.settles_resolve scopes).bind fun _ => (settles_resolveExprs scopes es).bind fun _ =>
    .pure fun _ hes he => by simp [Code.readBackExprs, he, hes]

theorem settles_resolveEntries (scopes : Scopes) : (es : List (Expr × Expr)) →
    Settles (resolveEntries scopes es) fun later cs =>
      Code.readBackEntries later.lexicon later.sources cs = some es
  | [] => .pure fun _ => rfl
  | (k, v) :: es => (k.settles_resolve scopes).bind fun _ => (v.settles_resolve scopes).bind fun _ =>
    (settles_resolveEntries scopes es).bind fun _ => .pure fun _ hes hv hk => by
      simp [Code.readBackEntries, hk, hv, hes]

theorem settles_resolveArgs (scopes : Scopes) (keywordSeen : Bool) : (args : List Arg) →
    Settles (resolveArgs scopes keywordSeen args) fun later cs =>
      Code.readBackArgs later.lexicon later.sources cs = some args
  | [] => .pure fun _ => rfl
  | .positional value :: args => by
    rw [resolveArgs]
    cases keywordSeen with
    | true => exact .throw _
    | false =>
      exact (value.settles_resolve scopes).bind fun _ => (settles_resolveArgs scopes _ args).bind fun _ =>
        .pure fun _ ha hv => by simp [Code.readBackArgs, hv, ha]
  | .keyword x value :: args => (Settles.learn x).bind fun _ =>
    (value.settles_resolve scopes).bind fun _ => (settles_resolveArgs scopes _ args).bind fun _ =>
      .pure fun _ ha hv known => by simp [Code.readBackArgs, known, hv, ha]
  | .spread value :: args => (value.settles_resolve scopes).bind fun _ =>
    (settles_resolveArgs scopes _ args).bind fun _ => .pure fun _ ha hv => by
      simp [Code.readBackArgs, hv, ha]
  | .spreadKeywords value :: args => (value.settles_resolve scopes).bind fun _ =>
    (settles_resolveArgs scopes _ args).bind fun _ => .pure fun _ ha hv => by
      simp [Code.readBackArgs, hv, ha]

theorem settles_resolveDefaults (scopes : Scopes) : (params : List Param) →
    Settles (resolveDefaults scopes params) fun later cs =>
      Code.readBackExprs later.lexicon later.sources cs = some ((paramDefaults params).map Prod.snd)
  | [] => .pure fun _ => rfl
  | .defaulted x value :: params => (value.settles_resolve scopes).bind fun _ =>
    (settles_resolveDefaults scopes params).bind fun _ => .pure fun _ hps hv => by
      simp only [Code.readBackExprs, hv, hps, paramDefaults_eq]
      rfl
  | .required _ :: params => (settles_resolveDefaults scopes params).imp fun _ _ h => by
    rw [paramDefaults_eq] at h ⊢
    exact h
  | .rest _ :: params => (settles_resolveDefaults scopes params).imp fun _ _ h => by
    rw [paramDefaults_eq] at h ⊢
    exact h
  | .bareStar :: params => (settles_resolveDefaults scopes params).imp fun _ _ h => by
    rw [paramDefaults_eq] at h ⊢
    exact h
  | .keywords _ :: params => (settles_resolveDefaults scopes params).imp fun _ _ h => by
    rw [paramDefaults_eq] at h ⊢
    exact h

end

mutual

theorem Target.settles_resolve (scopes : Scopes) : (t : Target) →
    Settles (t.resolve scopes) fun later c => c.readBack later.lexicon later.sources = some t
  | .name x => (Settles.name scopes x).bind fun _ => .pure fun _ h => by
    simp [Code.Target.readBack, h.1, h.2]
  | .index object index => (object.settles_resolve scopes).bind fun _ =>
    (index.settles_resolve scopes).bind fun _ => .pure fun _ hi ho => by
      simp [Code.Target.readBack, ho, hi]
  | .tuple targets => (settles_resolveTargets scopes targets).bind fun _ => .pure fun _ h => by
    simp [Code.Target.readBack, h]

theorem settles_resolveTargets (scopes : Scopes) : (ts : List Target) →
    Settles (resolveTargets scopes ts) fun later cs =>
      Code.readBackTargets later.lexicon later.sources cs = some ts
  | [] => .pure fun _ => rfl
  | t :: ts => (t.settles_resolve scopes).bind fun _ => (settles_resolveTargets scopes ts).bind fun _ =>
    .pure fun _ hts ht => by simp [Code.readBackTargets, ht, hts]

end

mutual

theorem Stmt.settles_resolve (scopes : Scopes) (inLoop : Bool) : (s : Stmt) →
    Settles (s.resolve scopes inLoop) fun later c =>
      c.readBack later.lexicon later.sources = some s
  | .expr e => (e.settles_resolve scopes).bind fun _ => .pure fun _ h => by
    simp [Code.Stmt.readBack, h]
  | .assign target value => (value.settles_resolve scopes).bind fun _ =>
    (target.settles_resolve scopes).bind fun _ => .pure fun _ ht hv => by
      simp [Code.Stmt.readBack, ht, hv]
  | .augment (.tuple ts) op value => .throw _
  | .augment (.name x) op value => (value.settles_resolve scopes).bind fun _ =>
    (Target.settles_resolve scopes (.name x)).bind fun _ => .pure fun _ ht hv => by
      simp [Code.Stmt.readBack, ht, hv]
  | .augment (.index object index) op value => (value.settles_resolve scopes).bind fun _ =>
    (Target.settles_resolve scopes (.index object index)).bind fun _ => .pure fun _ ht hv => by
      simp [Code.Stmt.readBack, ht, hv]
  | .branch test body orelse => (test.settles_resolve scopes).bind fun _ =>
    (settles_resolveBlock scopes inLoop body).bind fun _ =>
      (settles_resolveBlock scopes inLoop orelse).bind fun _ => .pure fun _ ho hb ht => by
        simp [Code.Stmt.readBack, ht, hb, ho]
  | .loop target iter body => (iter.settles_resolve scopes).bind fun _ =>
    (target.settles_resolve scopes).bind fun _ => (settles_resolveBlock scopes true body).bind fun _ =>
      .pure fun _ hb ht hi => by simp [Code.Stmt.readBack, ht, hi, hb]
  | .leaveLoop => by
    cases inLoop
    · exact .throw _
    · exact .pure fun _ => rfl
  | .nextRound => by
    cases inLoop
    · exact .throw _
    · exact .pure fun _ => rfl
  | .pass => .pure fun _ => rfl
  | .giveBack value => by
    rw [Stmt.resolve.eq_def]
    dsimp only
    split
    · exact .throw _
    · cases value with
      | none => exact .pure fun _ => rfl
      | some e =>
        exact (e.settles_resolve scopes).bind fun _ => .pure fun _ h => by
          simp [Code.Stmt.readBack, h]
  | .define name params body => by
    have inside (inner : Scopes) : Settles (do return Code.Body.block (← resolveBlock inner false body))
        fun later c => c.readBack later.lexicon later.sources = some (.block body) :=
      (settles_resolveBlock inner false body).bind fun _ => .pure fun _ h => by
        simp [Code.Body.readBack, h]
    refine (Settles.definition (settles_resolveDefaults scopes params) inside).bind fun p =>
      (Settles.name scopes name).bind fun x => .pure ?_
    rintro later ⟨text, known⟩ ⟨s, there, rfl, source, whole⟩
    obtain ⟨values, hv, hp⟩ := Option.bind_eq_some_iff.1 whole
    simp [Code.Stmt.readBack, there, hv, hp, source, text, known]

theorem settles_resolveBlock (scopes : Scopes) (inLoop : Bool) : (ss : List Stmt) →
    Settles (resolveBlock scopes inLoop ss) fun later cs =>
      Code.readBackBlock later.lexicon later.sources cs = some ss
  | [] => .pure fun _ => rfl
  | s :: ss => (s.settles_resolve scopes inLoop).bind fun _ =>
    (settles_resolveBlock scopes inLoop ss).bind fun _ => .pure fun _ hss hs => by
      simp [Code.readBackBlock, hs, hss]

end

end Program

end Scriptlet
