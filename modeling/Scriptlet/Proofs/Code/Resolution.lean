import Mathlib.Data.List.Perm.Subperm
import Scriptlet.Proofs.Code.Definitions
import Scriptlet.Proofs.Code.Growth
import Scriptlet.Proofs.Code.Signatures

/-!
# Resolution gives well-formed code

Whatever program is resolved, the code that comes out needs only what its place allows, the functions that it
makes are new, well-formed definitions of the table, and none of them is made in two places. The table and the
lexicon only grow; if the program is refused, the lexicon still only grows.
-/

namespace Scriptlet

namespace Code

open Fault (Malformed)

/-- Whether a draft knows a word. -/
def Draft.Knows (d : Draft) (w : String) : Prop := w ∈ d.lexicon.words

/-- Resolution inside `n` functions went from the draft `d₀` to `d`: it met code with some needs and added some
functions to the table. -/
structure Resolved (d₀ : Draft) (n : Nat) (needs : List Need) (new : List Function) (d : Draft) :
    Prop where
  words : ∀ w, d₀.Knows w → d.Knows w
  functions : d.functions.toList = d₀.functions.toList ++ new
  allowed : ∀ need ∈ needs, Allowed d.functions d.Knows n need
  made : ∀ id ∈ needs.filterMap Need.made?, Defined d.functions d.Knows n id
  defined : ∀ i, d₀.functions.size ≤ i → i < d.functions.size →
    ∃ k, Defined d.functions d.Knows k ⟨i⟩
  fresh : ∀ id ∈ needs.filterMap Need.made? ++ madeIn new,
    d₀.functions.size ≤ id.index ∧ id.index < d.functions.size
  nodup : (needs.filterMap Need.made? ++ madeIn new).Nodup

namespace Resolved

variable {d₀ d d₁ d₂ : Draft} {n : Nat} {needs acc : List Need} {new : List Function}

theorem start (d : Draft) (n : Nat) : Resolved d n [] [] d where
  words _ := id
  functions := by simp
  allowed := by simp
  made := by simp
  defined i h h' := by omega
  fresh := by simp [madeIn]
  nodup := by simp [madeIn]

theorem size_eq (h : Resolved d₀ n needs new d) : d.functions.size = d₀.functions.size + new.length := by
  simpa using congrArg List.length h.functions

/-- Needs may be forgotten and met in another order. -/
theorem weaken (h : Resolved d₀ n acc new d) (hs : needs.Subperm acc) : Resolved d₀ n needs new d := by
  obtain ⟨l, hl, hsub⟩ := hs
  have hmade : ∀ id ∈ needs.filterMap Need.made?, id ∈ acc.filterMap Need.made? := fun id hid =>
    (hsub.filterMap _).subset ((hl.filterMap _).mem_iff.2 hid)
  refine ⟨h.words, h.functions, fun need hn => h.allowed need (hsub.subset (hl.mem_iff.2 hn)),
    fun id hid => h.made id (hmade id hid), h.defined, fun id hid => h.fresh id ?_, ?_⟩
  · rcases List.mem_append.1 hid with hid | hid
    · exact List.mem_append_left _ (hmade id hid)
    · exact List.mem_append_right _ hid
  · rw [← ((hl.filterMap _).append_right _).nodup_iff]
    exact h.nodup.sublist ((hsub.filterMap _).append_right _)

/-- More words are known. -/
theorem learn (h : Resolved d₀ n acc new d) (w : String) :
    Resolved d₀ n (.word w :: acc) new { d with lexicon := d.lexicon.learn w } := by
  have grow : ∀ x, d.Knows x → Draft.Knows { d with lexicon := d.lexicon.learn w } x := fun x hx =>
    (d.lexicon.prefix_learn w).subset hx
  refine ⟨fun x hx => grow x (h.words x hx), h.functions, ?_, fun id hid => ?_, fun i hi hlt => ?_,
    h.fresh, h.nodup⟩
  · intro need hneed
    rcases List.mem_cons.1 hneed with rfl | hneed
    · exact d.lexicon.mem_learn w
    · exact (h.allowed need hneed).mono (Extends.refl _) grow
  · exact (h.made id hid).mono (Extends.refl _) grow
  · obtain ⟨k, hk⟩ := h.defined i hi hlt
    exact ⟨k, hk.mono (Extends.refl _) grow⟩

/-- Needs that make no function are met without a change. -/
theorem extend (h : Resolved d₀ n acc new d) (ha : ∀ need ∈ needs, Allowed d.functions d.Knows n need)
    (hm : needs.filterMap Need.made? = []) : Resolved d₀ n (needs ++ acc) new d := by
  refine ⟨h.words, h.functions, fun need hneed => ?_, ?_, h.defined, ?_, ?_⟩
  · rcases List.mem_append.1 hneed with hneed | hneed
    · exact ha need hneed
    · exact h.allowed need hneed
  all_goals rw [List.filterMap_append, hm, List.nil_append]
  · exact h.made
  · exact h.fresh
  · exact h.nodup

/-- A function whose body was resolved inside one more function goes to the table. -/
theorem define {inner : List Function} {f : Function} (h : Resolved d₀ n acc new d₁)
    (hb : Resolved d₁ (n + 1) f.body.needs inner d₂) (nested : f.nested = decide (0 < n))
    (name : d₂.Knows f.name) (params : ∀ x ∈ f.signature.names, d₂.Knows x) (numbered : f.signature.Numbered) :
    Resolved d₀ n (.make ⟨d₂.functions.size⟩ f.signature.defaultsCount :: acc) (new ++ (inner ++ [f]))
      { d₂ with functions := d₂.functions.push f } := by
  have ext₂ : Extends d₂.functions (d₂.functions.push f) :=
    extends_of_toList (Array.toList_push ..)
  have ext₁ : Extends d₁.functions (d₂.functions.push f) :=
    (extends_of_toList hb.functions).trans ext₂
  have found : (d₂.functions.push f)[d₂.functions.size]? = some f := by simp
  have defined : Defined (d₂.functions.push f) d₂.Knows n ⟨d₂.functions.size⟩ :=
    .intro found nested name params numbered (fun need hn => (hb.allowed need hn).mono ext₂ fun _ => id)
      fun g hg => (hb.made g hg).mono ext₂ fun _ => id
  have hs₁ := h.size_eq
  have hs₂ := hb.size_eq
  -- The list of all functions made, sorted by the three ranges that they come from.
  have hperm : ((Need.make ⟨d₂.functions.size⟩ f.signature.defaultsCount :: acc).filterMap Need.made? ++
      madeIn (new ++ (inner ++ [f]))).Perm
      (⟨d₂.functions.size⟩ :: ((acc.filterMap Need.made? ++ madeIn new) ++
        (f.body.needs.filterMap Need.made? ++ madeIn inner))) := by
    rw [List.perm_iff_count]
    intro id
    simp [madeIn, Body.made, Need.made?, List.count_append, List.count_cons]
    omega
  refine ⟨fun w hw => hb.words w (h.words w hw), ?_, ?_, ?_, ?_, ?_, ?_⟩
  · simp [hb.functions, h.functions]
  · intro need hneed
    rcases List.mem_cons.1 hneed with rfl | hneed
    · exact ⟨f, found, rfl, nested⟩
    · exact (h.allowed need hneed).mono ext₁ hb.words
  · intro id hid
    rcases List.mem_cons.1 hid with rfl | hid
    · exact defined
    · exact (h.made id hid).mono ext₁ hb.words
  · intro i hi hlt
    simp only [Array.size_push] at hlt
    by_cases h₁ : i < d₁.functions.size
    · obtain ⟨k, hk⟩ := h.defined i hi h₁
      exact ⟨k, hk.mono ext₁ hb.words⟩
    by_cases h₂ : i < d₂.functions.size
    · obtain ⟨k, hk⟩ := hb.defined i (by omega) h₂
      exact ⟨k, hk.mono ext₂ fun _ => id⟩
    · obtain rfl : i = d₂.functions.size := by omega
      exact ⟨n, defined⟩
  · intro id hid
    simp only [Array.size_push]
    rcases List.mem_cons.1 (hperm.mem_iff.1 hid) with rfl | hid
    · exact ⟨by simp only; omega, by simp⟩
    · rcases List.mem_append.1 hid with hid | hid
      · have := h.fresh id hid
        omega
      · have := hb.fresh id hid
        omega
  · rw [hperm.nodup_iff, List.nodup_cons, List.nodup_append]
    refine ⟨fun hid => ?_, h.nodup, hb.nodup, fun a ha b hb' hab => ?_⟩
    · rcases List.mem_append.1 hid with hid | hid
      · have := (h.fresh _ hid).2
        simp only at this
        omega
      · have := (hb.fresh _ hid).2
        simp only at this
        omega
    · subst hab
      have := h.fresh _ ha
      have := hb.fresh _ hb'
      omega

end Resolved

/-! ## Steps of resolution -/

/-- Where a name is bound among the functions around it. -/
def scopeOf (scopes : Scopes) (x : String) : Scope :=
  match scopes.findIdx? (·.contains x) with
  | none => .global
  | some 0 => .own
  | some levels => .outer levels

/-- The innermost function, if there is one, binds a name. -/
def Bound (scopes : Scopes) (x : String) : Prop := ∀ s ∈ scopes.head?, x ∈ s

theorem scopeOf_bound {scopes : Scopes} {x : String} (h : Bound scopes x) :
    scopeOf scopes x = if scopes.length = 0 then .global else .own := by
  cases scopes with
  | nil => rfl
  | cons s rest =>
    have hx : x ∈ s := h s rfl
    simp [scopeOf, List.findIdx?_cons, hx]

theorem allowed_load {table : Array Function} {word : String → Prop} (scopes : Scopes) {x : String}
    (hx : word x) : Allowed table word scopes.length (.load ⟨x, scopeOf scopes x⟩) := by
  refine ⟨hx, ?_⟩
  unfold scopeOf
  cases hi : scopes.findIdx? (·.contains x) with
  | none => trivial
  | some i =>
    have hlt := (List.findIdx?_eq_some_iff_getElem.1 hi).1
    cases i with
    | zero => exact hlt
    | succ i => exact ⟨Nat.succ_pos i, hlt⟩

theorem allowed_store {table : Array Function} {word : String → Prop} {scopes : Scopes} {x : String}
    (h : Bound scopes x) (hx : word x) : Allowed table word scopes.length (.store ⟨x, scopeOf scopes x⟩) :=
  ⟨hx, scopeOf_bound h⟩

/-- A step of resolution inside `n` functions that starts when `acc` has been met: it gives a result `a` when
`N a` has been met, or it refuses the program and still knows all words. -/
def Yields {α : Type} (n : Nat) (acc : List Need) (x : Resolving α) (N : α → List Need) : Prop :=
  ∀ ⦃d₀ new d⦄, Resolved d₀ n acc new d →
    match x d with
    | .ok a d' => ∃ new', Resolved d₀ n (N a) new' d'
    | .error _ d' => ∀ w, d₀.Knows w → d'.Knows w

namespace Yields

variable {α β : Type} {n : Nat} {acc acc' : List Need} {x : Resolving α} {N : α → List Need}

theorem pure {a : α} (h : ∀ need, (N a).count need ≤ acc.count need) : Yields n acc (Pure.pure a) N :=
  fun _ _ _ hr => ⟨_, hr.weaken (List.subperm_iff_count.2 h)⟩

theorem throw (e : Malformed) : Yields n acc (MonadExcept.throw e : Resolving α) N :=
  fun _ _ _ hr => hr.words

/-- A step and then another one, where all results of the first meet `Q`. -/
theorem bind_of {f : α → Resolving β} {P : β → List Need} {Q : α → Prop} (hx : Yields n acc x N)
    (hQ : ∀ {d a d'}, x d = .ok a d' → Q a) (hf : ∀ a, Q a → Yields n (N a) (f a) P) : Yields n acc (x >>= f) P := by
  intro d₀ new d hr
  have h := hx hr
  simp only [Bind.bind, EStateM.bind]
  cases hd : x d with
  | error e d' => simpa only [hd] using h
  | ok a d' =>
    simp only [hd] at h
    obtain ⟨new', hr'⟩ := h
    exact hf a (hQ hd) hr'

theorem bind {f : α → Resolving β} {P : β → List Need} (hx : Yields n acc x N)
    (hf : ∀ a, Yields n (N a) (f a) P) : Yields n acc (x >>= f) P :=
  hx.bind_of (Q := fun _ => True) (fun _ => trivial) fun a _ => hf a

/-- Needs may be forgotten, and met in another order, before and after. -/
theorem weaken {P : α → List Need} (hx : Yields n acc x N) (hacc : ∀ need, acc.count need ≤ acc'.count need)
    (hN : ∀ a need, (P a).count need ≤ (N a).count need) : Yields n acc' x P := by
  intro d₀ new d hr
  have h := hx (hr.weaken (List.subperm_iff_count.2 hacc))
  cases hd : x d with
  | error e d' => simpa only [hd] using h
  | ok a d' =>
    simp only [hd] at h ⊢
    obtain ⟨new', hr'⟩ := h
    exact ⟨new', hr'.weaken (List.subperm_iff_count.2 (hN a))⟩

theorem learn (w : String) : Yields n acc (Resolving.learn w) fun _ => .word w :: acc :=
  fun _ _ _ hr => ⟨_, hr.learn w⟩

theorem learnAll (ws : List String) : Yields n acc (Resolving.learnAll ws) fun _ => ws.map .word ++ acc := by
  induction ws generalizing acc with
  | nil => exact .pure fun _ => Nat.le_refl _
  | cons w ws ih =>
    refine (learn w).bind fun _ => ih.weaken (fun _ => Nat.le_refl _) fun _ need => ?_
    simp [List.count_append, List.count_cons]
    omega

/-- A name is resolved to where it is bound. -/
theorem name (scopes : Scopes) (x : String) (needs : Name → List Need)
    (ha : ∀ {table : Array Function} {word : String → Prop}, word x →
      ∀ need ∈ needs ⟨x, scopeOf scopes x⟩, Allowed table word scopes.length need)
    (hm : (needs ⟨x, scopeOf scopes x⟩).filterMap Need.made? = []) :
    Yields scopes.length acc (Resolving.name scopes x) fun x' => needs x' ++ acc := by
  refine (learn x).bind fun _ => ?_
  intro d₀ new d hr
  have known : d.Knows x := hr.allowed (.word x) (by simp)
  have ok : ∃ new', Resolved d₀ scopes.length (needs ⟨x, scopeOf scopes x⟩ ++ acc) new' d :=
    ⟨new, (hr.weaken (List.subperm_iff_count.2 fun need => by
      simp [List.count_cons])).extend (ha known) hm⟩
  unfold scopeOf at ok
  cases hi : scopes.findIdx? (·.contains x) with
  | none =>
    simp only [hi] at ok ⊢
    exact ok
  | some i =>
    cases i with
    | zero =>
      simp only [hi] at ok ⊢
      exact ok
    | succ i =>
      simp only [hi] at ok ⊢
      by_cases hmax : maxLevels < i + 1
      · rw [if_pos hmax]
        exact hr.words
      · rw [if_neg hmax]
        exact ok

/-- A function goes to the table after its body has been resolved inside one more function. -/
theorem addFunction {b : Resolving Body} {name : String} {signature : Signature} {nested : Bool}
    (hb : Yields (n + 1) [] b Body.needs) (hnested : nested = decide (0 < n))
    (hname : .word name ∈ acc) (hparams : ∀ x ∈ signature.names, .word x ∈ acc) (numbered : signature.Numbered) :
    Yields n acc (do let body ← b; Resolving.addFunction { name, signature, body, nested })
      fun id => .make id signature.defaultsCount :: acc := by
  intro d₀ new d hr
  have h := hb (Resolved.start d (n + 1))
  simp only [Bind.bind, EStateM.bind]
  cases hd : b d with
  | error e d' =>
    simp only [hd] at h ⊢
    exact fun w hw => h w (hr.words w hw)
  | ok body d' =>
    simp only [hd] at h ⊢
    obtain ⟨inner, hb'⟩ := h
    exact ⟨_, hr.define (f := { name, signature, body, nested }) hb' hnested
      (hb'.words _ (hr.allowed _ hname)) (fun x hx => hb'.words _ (hr.allowed _ (hparams x hx)))
      numbered⟩

/-- A definition adds a function to the table and leaves its defaults behind. -/
theorem definition {scopes : Scopes} {name : String} {params : List Program.Param}
    {assigned : List String} {defaults : Resolving (List Expr)} {body : Scopes → Resolving Body}
    (hd : ∀ acc, Yields scopes.length acc defaults fun es => exprsNeeds es ++ acc)
    (hlen : ∀ {d es d'}, defaults d = .ok es d' → es.length = params.countP hasDefault)
    (hb : ∀ inner : Scopes, inner = (params.filterMap (·.name?) ++ assigned) :: scopes →
      Yields inner.length [] (body inner) Body.needs) :
    Yields scopes.length acc (Resolving.definition scopes name params assigned defaults body)
      fun p => .make p.1 p.2.length :: (exprsNeeds p.2 ++ acc) := by
  unfold Resolving.definition
  refine (learn name).bind fun _ => ?_
  cases hg : ParamGroups.ofParams name params with
  | error e => exact fun _ _ _ hr => hr.words
  | ok groups =>
    obtain ⟨hnames, hcount⟩ := signature_of_ofParams hg
    have hnested : (!scopes.isEmpty) = decide (0 < scopes.length) := by cases scopes <;> rfl
    simp only [MonadExcept.ofExcept, pure_bind]
    refine (hd _).bind_of hlen fun es hes => (learnAll _).bind fun _ => ?_
    rw [← bind_assoc]
    refine (addFunction (hb _ rfl) hnested (by simp) (fun x hx => ?_)
      (Signature.numbered_ofGroups groups)).bind fun id => .pure fun need => ?_
    · have := hnames x hx
      simp_all
    · rw [hcount, ← hes]
      simp [List.count_append, List.count_cons]
      omega

end Yields

end Code

/-! ## Programs -/

namespace Program

open Code (Bound Scopes Yields exprsNeeds entriesNeeds argsNeeds)

/-- The defaults that are left behind are those of the parameter list. -/
theorem length_resolveDefaults {scopes : Scopes} {params : List Param} {d d' : Code.Draft}
    {es : List Code.Expr} (h : resolveDefaults scopes params d = .ok es d') :
    es.length = params.countP Code.hasDefault := by
  induction params generalizing d d' es with
  | nil => cases h; rfl
  | cons p params ih =>
    cases p with
    | defaulted x value =>
      simp only [resolveDefaults, bind, EStateM.bind] at h
      cases hv : value.resolve scopes d with
      | error e d₁ => simp [hv] at h
      | ok v d₁ =>
        simp only [hv] at h
        cases hp : resolveDefaults scopes params d₁ with
        | error e d₂ => simp [hp] at h
        | ok vs d₂ =>
          simp only [hp] at h
          cases h
          simp [ih hp, Code.hasDefault, List.countP_cons]
    | _ =>
      rw [resolveDefaults] at h
      simpa [Code.hasDefault, List.countP_cons] using ih h

mutual

theorem Expr.yields_resolve {acc : List Code.Need} (scopes : Scopes) : (e : Expr) →
    Yields scopes.length acc (e.resolve scopes) fun c => c.needs ++ acc
  | .none => .pure fun _ => Nat.le_refl _
  | .bool b => .pure fun _ => Nat.le_refl _
  | .int n => .pure fun _ => Nat.le_refl _
  | .str s => (Yields.learn s).bind fun _ => .pure fun _ => Nat.le_refl _
  | .name x => by
    refine (Yields.name scopes x (fun x' => [.load x']) ?_ rfl).bind
      fun _ => .pure fun _ => Nat.le_refl _
    intro table word hx need hneed
    rw [List.mem_singleton.1 hneed]
    exact Code.allowed_load scopes hx
  | .list items => (yields_resolveExprs scopes items).bind fun _ => .pure fun _ => Nat.le_refl _
  | .tuple items => (yields_resolveExprs scopes items).bind fun _ => .pure fun _ => Nat.le_refl _
  | .dict entries => (yields_resolveEntries scopes entries).bind fun _ => .pure fun _ => Nat.le_refl _
  | .index object index => by
    refine (object.yields_resolve scopes).bind fun _ => (index.yields_resolve scopes).bind fun _ =>
      .pure fun need => ?_
    simp [Code.Expr.needs, List.count_append]
    omega
  | .attr object attr => by
    refine (object.yields_resolve scopes).bind fun _ => (Yields.learn attr).bind fun _ =>
      .pure fun need => ?_
    simp [Code.Expr.needs]
  | .call callee args => by
    refine (callee.yields_resolve scopes).bind fun _ => (yields_resolveArgs scopes _ args).bind
      fun _ => .pure fun need => ?_
    simp [Code.Expr.needs, List.count_append]
    omega
  | .binary left op right => by
    refine (left.yields_resolve scopes).bind fun _ => (right.yields_resolve scopes).bind fun _ =>
      .pure fun need => ?_
    simp [Code.Expr.needs, List.count_append]
    omega
  | .compare left op right => by
    refine (left.yields_resolve scopes).bind fun _ => (right.yields_resolve scopes).bind fun _ =>
      .pure fun need => ?_
    simp [Code.Expr.needs, List.count_append]
    omega
  | .not operand => (operand.yields_resolve scopes).bind fun _ => .pure fun _ => Nat.le_refl _
  | .neg operand => (operand.yields_resolve scopes).bind fun _ => .pure fun _ => Nat.le_refl _
  | .and left right => by
    refine (left.yields_resolve scopes).bind fun _ => (right.yields_resolve scopes).bind fun _ =>
      .pure fun need => ?_
    simp [Code.Expr.needs, List.count_append]
    omega
  | .or left right => by
    refine (left.yields_resolve scopes).bind fun _ => (right.yields_resolve scopes).bind fun _ =>
      .pure fun need => ?_
    simp [Code.Expr.needs, List.count_append]
    omega
  | .cond test body orelse => by
    refine (test.yields_resolve scopes).bind fun _ => (body.yields_resolve scopes).bind fun _ =>
      (orelse.yields_resolve scopes).bind fun _ => .pure fun need => ?_
    simp [Code.Expr.needs, List.count_append]
    omega
  | .lambda params body => by
    refine (Yields.definition (fun _ => yields_resolveDefaults scopes params) length_resolveDefaults
      ?_).bind fun p => .pure fun need => ?_
    · exact fun inner _ => (body.yields_resolve inner).bind fun _ => .pure fun _ => by
        simp [Code.Body.needs]
    · simp [Code.Expr.needs, List.count_append, List.count_cons]

theorem yields_resolveExprs {acc : List Code.Need} (scopes : Scopes) : (es : List Expr) →
    Yields scopes.length acc (resolveExprs scopes es) fun cs => exprsNeeds cs ++ acc
  | [] => .pure fun _ => Nat.le_refl _
  | e :: es => by
    refine (e.yields_resolve scopes).bind fun _ => (yields_resolveExprs scopes es).bind fun _ =>
      .pure fun need => ?_
    simp [exprsNeeds, List.count_append]
    omega

theorem yields_resolveEntries {acc : List Code.Need} (scopes : Scopes) : (es : List (Expr × Expr)) →
    Yields scopes.length acc (resolveEntries scopes es) fun cs => entriesNeeds cs ++ acc
  | [] => .pure fun _ => Nat.le_refl _
  | (k, v) :: es => by
    refine (k.yields_resolve scopes).bind fun _ => (v.yields_resolve scopes).bind fun _ =>
      (yields_resolveEntries scopes es).bind fun _ => .pure fun need => ?_
    simp [entriesNeeds, List.count_append]
    omega

theorem yields_resolveArgs {acc : List Code.Need} (scopes : Scopes) (keywordSeen : Bool) :
    (args : List Arg) →
    Yields scopes.length acc (resolveArgs scopes keywordSeen args) fun cs => argsNeeds cs ++ acc
  | [] => .pure fun _ => Nat.le_refl _
  | .positional value :: args => by
    rw [resolveArgs]
    cases keywordSeen with
    | true => exact .throw _
    | false =>
      refine (value.yields_resolve scopes).bind fun _ =>
        (yields_resolveArgs scopes _ args).bind fun _ => .pure fun need => ?_
      simp [argsNeeds, List.count_append]
      omega
  | .keyword x value :: args => by
    refine (Yields.learn x).bind fun _ => (value.yields_resolve scopes).bind fun _ =>
      (yields_resolveArgs scopes _ args).bind fun _ => .pure fun need => ?_
    simp [argsNeeds, List.count_append, List.count_cons]
    omega
  | .spread value :: args => by
    refine (value.yields_resolve scopes).bind fun _ =>
      (yields_resolveArgs scopes _ args).bind fun _ => .pure fun need => ?_
    simp [argsNeeds, List.count_append]
    omega
  | .spreadKeywords value :: args => by
    refine (value.yields_resolve scopes).bind fun _ =>
      (yields_resolveArgs scopes _ args).bind fun _ => .pure fun need => ?_
    simp [argsNeeds, List.count_append]
    omega

theorem yields_resolveDefaults {acc : List Code.Need} (scopes : Scopes) : (params : List Param) →
    Yields scopes.length acc (resolveDefaults scopes params) fun cs => exprsNeeds cs ++ acc
  | [] => .pure fun _ => Nat.le_refl _
  | .defaulted _ value :: params => by
    refine (value.yields_resolve scopes).bind fun _ =>
      (yields_resolveDefaults scopes params).bind fun _ => .pure fun need => ?_
    simp [exprsNeeds, List.count_append]
    omega
  | .required _ :: params => yields_resolveDefaults scopes params
  | .rest _ :: params => yields_resolveDefaults scopes params
  | .bareStar :: params => yields_resolveDefaults scopes params
  | .keywords _ :: params => yields_resolveDefaults scopes params

end

/-! ## Statements -/

mutual

theorem Target.yields_resolve {acc : List Code.Need} {scopes : Scopes} : (t : Target) →
    (∀ x ∈ t.names, Bound scopes x) →
    Yields scopes.length acc (t.resolve scopes) fun c => c.needs ++ acc
  | .name x, hb => by
    refine (Yields.name scopes x (fun x' => [.store x']) ?_ rfl).bind
      fun _ => .pure fun _ => Nat.le_refl _
    intro table word hx need hneed
    rw [List.mem_singleton.1 hneed]
    exact Code.allowed_store (hb x (by simp [Target.names])) hx
  | .index object index, _ => by
    refine (object.yields_resolve scopes).bind fun _ => (index.yields_resolve scopes).bind fun _ =>
      .pure fun need => ?_
    simp [Code.Target.needs, List.count_append]
    omega
  | .tuple targets, hb =>
    (yields_resolveTargets targets hb).bind fun _ => .pure fun _ => Nat.le_refl _

theorem yields_resolveTargets {acc : List Code.Need} {scopes : Scopes} : (ts : List Target) →
    (∀ x ∈ targetNames ts, Bound scopes x) →
    Yields scopes.length acc (resolveTargets scopes ts) fun cs => Code.targetsNeeds cs ++ acc
  | [], _ => .pure fun _ => Nat.le_refl _
  | t :: ts, hb => by
    simp only [targetNames, List.forall_mem_append] at hb
    refine (t.yields_resolve hb.1).bind fun _ => (yields_resolveTargets ts hb.2).bind fun _ =>
      .pure fun need => ?_
    simp [Code.targetsNeeds, List.count_append]
    omega

end

/-- The target of an augmented assignment is read and assigned. -/
theorem Target.yields_resolve_reads {acc : List Code.Need} {scopes : Scopes} (t : Target)
    (ht : ∀ ts, t ≠ .tuple ts) (hb : ∀ x ∈ t.names, Bound scopes x) :
    Yields scopes.length acc (t.resolve scopes) fun c => c.reads ++ c.needs ++ acc := by
  cases t with
  | name x =>
    refine (Yields.name scopes x (fun x' => [.load x', .store x']) ?_ rfl).bind
      fun _ => .pure fun _ => Nat.le_refl _
    intro table word hx need hneed
    simp only [List.mem_cons, List.not_mem_nil, or_false] at hneed
    rcases hneed with rfl | rfl
    · exact Code.allowed_load scopes hx
    · exact Code.allowed_store (hb x (by simp [Target.names])) hx
  | index object index =>
    refine (object.yields_resolve scopes).bind fun _ => (index.yields_resolve scopes).bind fun _ =>
      .pure fun need => ?_
    simp [Code.Target.needs, Code.Target.reads, List.count_append]
    omega
  | tuple ts => exact absurd rfl (ht ts)

mutual

theorem Stmt.yields_resolve {acc : List Code.Need} {scopes : Scopes} (inLoop : Bool) : (s : Stmt) →
    (∀ x ∈ s.assigned, Bound scopes x) →
    Yields scopes.length acc (s.resolve scopes inLoop) fun c => c.needs ++ acc
  | .expr e, _ => (e.yields_resolve scopes).bind fun _ => .pure fun _ => Nat.le_refl _
  | .assign target value, hb => by
    refine (value.yields_resolve scopes).bind fun _ => (target.yields_resolve hb).bind fun _ =>
      .pure fun need => ?_
    simp [Code.Stmt.needs, List.count_append]
  | .augment (.tuple ts) op value, _ => .throw _
  | .augment (.name x) op value, hb => by
    refine (value.yields_resolve scopes).bind fun _ =>
      (Target.yields_resolve_reads (.name x) nofun hb).bind fun _ => .pure fun need => ?_
    simp [Code.Stmt.needs, List.count_append]
  | .augment (.index object index) op value, hb => by
    refine (value.yields_resolve scopes).bind fun _ =>
      (Target.yields_resolve_reads (.index object index) nofun hb).bind fun _ =>
        .pure fun need => ?_
    simp [Code.Stmt.needs, List.count_append]
  | .branch test body orelse, hb => by
    simp only [Stmt.assigned, List.forall_mem_append] at hb
    refine (test.yields_resolve scopes).bind fun _ => (yields_resolveBlock inLoop body hb.1).bind
      fun _ => (yields_resolveBlock inLoop orelse hb.2).bind fun _ => .pure fun need => ?_
    simp [Code.Stmt.needs, List.count_append]
    omega
  | .loop target iter body, hb => by
    simp only [Stmt.assigned, List.forall_mem_append] at hb
    refine (iter.yields_resolve scopes).bind fun _ => (target.yields_resolve hb.1).bind
      fun _ => (yields_resolveBlock true body hb.2).bind fun _ => .pure fun need => ?_
    simp [Code.Stmt.needs, List.count_append]
    omega
  | .leaveLoop, _ => by
    cases inLoop
    · exact .throw _
    · exact .pure fun _ => Nat.le_refl _
  | .nextRound, _ => by
    cases inLoop
    · exact .throw _
    · exact .pure fun _ => Nat.le_refl _
  | .pass, _ => .pure fun _ => Nat.le_refl _
  | .giveBack value, _ => by
    cases value with
    | none =>
      rw [Stmt.resolve]
      split
      · exact .throw _
      · exact .pure fun _ => Nat.le_refl _
    | some e =>
      rw [Stmt.resolve]
      split
      · exact .throw _
      · exact (e.yields_resolve scopes).bind fun _ => .pure fun _ => Nat.le_refl _
  | .define name params body, hb => by
    refine (Yields.definition (fun _ => yields_resolveDefaults scopes params) length_resolveDefaults
      ?_).bind fun p => ?_
    · intro inner hinner
      refine (yields_resolveBlock false body fun x hx s hs => ?_).bind fun _ => .pure fun _ => by
        simp [Code.Body.needs]
      subst hinner
      cases hs
      exact List.mem_append_right _ hx
    · refine (Yields.name scopes name (fun x' => [.store x']) ?_ rfl).bind
        fun _ => .pure fun need => ?_
      · intro table word hx need hneed
        rw [List.mem_singleton.1 hneed]
        exact Code.allowed_store (hb name (by simp [Stmt.assigned])) hx
      · simp [Code.Stmt.needs, List.count_append, List.count_cons]

theorem yields_resolveBlock {acc : List Code.Need} {scopes : Scopes} (inLoop : Bool) :
    (ss : List Stmt) → (∀ x ∈ assignedNames ss, Bound scopes x) →
    Yields scopes.length acc (resolveBlock scopes inLoop ss) fun cs => Code.blockNeeds cs ++ acc
  | [], _ => .pure fun _ => Nat.le_refl _
  | s :: ss, hb => by
    simp only [assignedNames, List.forall_mem_append] at hb
    refine (s.yields_resolve inLoop hb.1).bind fun _ => (yields_resolveBlock inLoop ss hb.2).bind
      fun _ => .pure fun need => ?_
    simp [Code.blockNeeds, List.count_append]
    omega

end

end Program

/-! ## Drafts -/

namespace Code.Draft

/-- Every function of the draft is well-formed, and none is made in two places. -/
structure Sound (d : Draft) : Prop where
  defined : ∀ i, i < d.functions.size → ∃ n, Defined d.functions d.Knows n ⟨i⟩
  made : ∀ id ∈ madeIn d.functions.toList, id.index < d.functions.size
  nodup : (madeIn d.functions.toList).Nodup

theorem Sound.empty : Sound {} where
  defined i h := by simp at h
  made := by simp [madeIn]
  nodup := by simp [madeIn]

/-- A sound draft stays sound when more words are known. -/
theorem Sound.of_words {d d' : Draft} (h : d.Sound) (hf : d'.functions = d.functions)
    (hw : ∀ w, d.Knows w → d'.Knows w) : d'.Sound := by
  obtain ⟨lexicon, functions⟩ := d'
  cases hf
  refine ⟨fun i hi => ?_, h.made, h.nodup⟩
  obtain ⟨n, hn⟩ := h.defined i hi
  exact ⟨n, hn.mono (Extends.refl _) hw⟩

/-- Resolution leaves a sound draft. -/
theorem Sound.of_resolved {d d' : Draft} {n : Nat} {needs : List Need} {new : List Function}
    (h : d.Sound) (hr : Resolved d n needs new d') : d'.Sound := by
  have ext : Extends d.functions d'.functions := extends_of_toList hr.functions
  have hsize := hr.size_eq
  have hmade : madeIn d'.functions.toList = madeIn d.functions.toList ++ madeIn new := by
    simp [madeIn, hr.functions]
  have hfresh : ∀ id ∈ madeIn new, d.functions.size ≤ id.index ∧ id.index < d'.functions.size :=
    fun id hid => hr.fresh id (List.mem_append_right _ hid)
  refine ⟨fun i hi => ?_, fun id hid => ?_, ?_⟩
  · by_cases hd : i < d.functions.size
    · obtain ⟨k, hk⟩ := h.defined i hd
      exact ⟨k, hk.mono ext hr.words⟩
    · exact hr.defined i (by omega) hi
  · rw [hmade] at hid
    rcases List.mem_append.1 hid with hid | hid
    · have := h.made id hid
      omega
    · exact (hfresh id hid).2
  · rw [hmade, List.nodup_append]
    refine ⟨h.nodup, hr.nodup.sublist (List.sublist_append_right ..), fun a ha b hb hab => ?_⟩
    subst hab
    have := h.made a ha
    have := (hfresh a hb).1
    omega

/-- What a step of resolution at module level does to a sound draft: it gives code whose needs are allowed
there, or it refuses the program and keeps the table. Either way the draft stays sound and no word is
forgotten. -/
theorem attempt_cases {α : Type} {d : Draft} (h : d.Sound) {step : Resolving α} {N : α → List Need}
    (hs : Yields 0 [] step N) (grows : step.Grows) :
    (∃ a d' new, d.attempt step = (.ok a, d') ∧ d'.Sound ∧ Resolved d 0 (N a) new d') ∨
    ∃ e d', d.attempt step = (.error e, d') ∧ d'.Sound ∧ d'.functions = d.functions ∧
      ∀ w, d.Knows w → d'.Knows w := by
  have hd := hs (Resolved.start d 0)
  cases hx : step d with
  | ok a d' =>
    simp only [hx] at hd
    obtain ⟨new, hr⟩ := hd
    exact .inl ⟨a, d', new, attempt_of_ok hx, h.of_resolved hr, hr⟩
  | error e d' =>
    simp only [hx] at hd
    exact .inr ⟨e, _, (attempt_of_error grows hx).2, h.of_words rfl hd, rfl, hd⟩

theorem resolveProgram_cases {d : Draft} (h : d.Sound) (program : List Program.Stmt) :
    (∃ code d' new, d.resolveProgram program = (.ok code, d') ∧ d'.Sound ∧
      Resolved d 0 (blockNeeds code) new d') ∨
    ∃ e d', d.resolveProgram program = (.error e, d') ∧ d'.Sound ∧ d'.functions = d.functions ∧
      ∀ w, d.Knows w → d'.Knows w := by
  have hs : Yields (List.length ([] : Scopes)) [] (Program.resolveBlock [] false program)
      fun code => blockNeeds code ++ [] :=
    Program.yields_resolveBlock false program fun _ _ _ hs => by cases hs
  simp only [List.append_nil] at hs
  exact attempt_cases h hs (Program.grows_resolveBlock [] false program)

theorem resolveExpr_cases {d : Draft} (h : d.Sound) (e : Program.Expr) :
    (∃ code d' new, d.resolveExpr e = (.ok code, d') ∧ d'.Sound ∧
      Resolved d 0 code.needs new d') ∨
    ∃ f d', d.resolveExpr e = (.error f, d') ∧ d'.Sound ∧ d'.functions = d.functions ∧
      ∀ w, d.Knows w → d'.Knows w := by
  have hs : Yields (List.length ([] : Scopes)) [] (e.resolve []) fun code => code.needs ++ [] :=
    e.yields_resolve []
  simp only [List.append_nil] at hs
  exact attempt_cases h hs (e.grows_resolve [])

end Code.Draft

end Scriptlet
