import Scriptlet.Proofs.Pairing.TopLevel
import Scriptlet.Proofs.Watch.Session

/-!
# Two sessions

Two modules that hold the same answer every request alike and hold the same afterwards, except for the requests
that are about the heap itself. They go on holding the same when one of them collects. The second module may know
other words than the first one, and may have the functions of the first one at other places of its table.
-/

namespace Scriptlet

open Code (Draft)
open Heap (Reaches)
open Machine (pairing restingPairing)
open Trace (Tracer)

/-! ## Libraries that grow -/

section grows

variable {l l' : Library} {ρ : Renumbering} {M : Matching}

theorem Matching.linkedTo_mono (hl : l.Grows l') (M : Matching) (ρ : Renumbering) :
    (M.linkedTo l ρ).Le (M.linkedTo l' ρ) where
  object := id
  frame := id
  captured := id
  word := id
  native h := Nat.lt_of_lt_of_le h hl.natives
  function h := by
    obtain ⟨place, f, hf, hcount⟩ := h
    exact ⟨place, f, hl.functions hf, hcount⟩

/-- Two machines still hold the same over a library that has grown, whatever words they have met. -/
theorem Matching.machines.grow {m m' : Machine} (S : M.machines l ρ m m') (hl : l.Grows l')
    (lexicon lexicon' : Code.Lexicon) :
    M.machines l' ρ { m with store := { m.store with lexicon } }
      { m' with store := { m'.store with lexicon := lexicon' } } := by
  have le := M.linkedTo_mono hl ρ
  exact ⟨⟨S.stores.heaps.relink le id id id, S.stores.tidy, S.stores.tidy', S.stores.meters⟩,
    S.globals.imp fun _ _ _ hv => hv.mono le, S.frozen, S.tracer⟩

theorem Code.Allowed.offers {word : String → Prop} {n : Nat} {need : Code.Need}
    (h : Code.Allowed l.functions word n need) : l.Offers need := by
  cases need with
  | make id defaults =>
    obtain ⟨f, hf, hcount, -⟩ := h
    exact ⟨f, hf, hcount⟩
  | _ => trivial

theorem Module.Tracked.complete {m : Module} {H : History} (h : m.Tracked H) : m.library.Complete where
  toLinked := h.linked
  function {id f} hf := by
    obtain ⟨n, defined⟩ := h.draft.defined id.index (Array.getElem?_eq_some_iff.1 hf).1
    obtain @⟨_, _, g, found, -, -, -, numbered, needs, -⟩ := defined
    obtain rfl : g = f := Option.some.inj (found.symm.trans hf)
    exact ⟨numbered, fun need hneed => (needs need hneed).offers⟩

end grows

/-- Whether a request is about the heap itself: a collection, or a question of what is on the heap or has been
used. -/
def Step.aboutHeap : Step → Bool
  | .collect | .census | .usage => true
  | _ => false

/-! ## Modules -/

/-- Two modules of the same name hold the same, the second one with the functions of the first one at new
places. -/
inductive Module.Paired : Module → Module → Prop where
  | intro {name : String} {l l' : Library} {store store' : Store} {globals globals' : Globals}
    {M : Matching} {ρ : Renumbering} (same : l.Renumbered ρ l')
    (h : M.machines l ρ ⟨store, globals, .silent⟩ ⟨store', globals', .silent⟩) :
    Paired ⟨name, l, store, globals⟩ ⟨name, l', store', globals'⟩

/-- Two steps give the same reply, and leave modules that hold the same. -/
def Module.SameReply (r r' : Reply × Module) : Prop := r.1 = r'.1 ∧ r.2.Paired r'.2

namespace Module

variable {m m' : Module} {H : History} {ρ : Renumbering}

theorem paired_create (name : String) {meter meter' : Budget.Meter}
    (h : meter.SameUpToCollection meter') : (create name meter).Paired (create name meter') := by
  let nothing : Matching := ⟨fun _ _ => False, fun _ _ => False, fun _ _ => False, fun _ => False,
    fun _ => False, fun _ _ _ => False⟩
  have same : Library.Renumbered id (create name meter).library (create name meter').library :=
    ⟨⟨rfl, rfl, rfl⟩, ⟨fun hf => by simp [create] at hf, fun _ => rfl⟩⟩
  refine .intro (M := nothing) same ⟨⟨?_, Heap.tidy_empty meter, Heap.tidy_empty meter', h⟩, .empty, rfl, rfl⟩
  exact ⟨False.elim, False.elim, False.elim, fun h => h.elim, fun h => h.elim⟩

/-- Either module may collect. -/
theorem Paired.thinned (h : m.Paired m') {k k' : Heap} (hk : m.heap.Thinned m.globals.roots k)
    (hk' : m'.heap.Thinned m'.globals.roots k') :
    Paired { m with store := { m.store with heap := k } }
      { m' with store := { m'.store with heap := k' } } := by
  obtain ⟨same, S⟩ := h
  exact .intro same (S.thinned hk hk')

theorem Paired.collect (h : m.Paired m') : m.collect.2.Paired m' :=
  h.thinned (m.heap.thinned_collect _) (m'.heap.thinned_self _)

theorem collectIfDue_eq (m : Module) : m.collectIfDue =
    { m with store := { m.store with
      heap := if m.heap.collectionDue then (m.heap.collect m.globals.roots).2 else m.heap } } := by
  unfold collectIfDue
  split <;> rfl

theorem Paired.collectIfDue (h : m.Paired m') : m.collectIfDue.Paired m'.collectIfDue := by
  rw [collectIfDue_eq, collectIfDue_eq]
  exact h.thinned (m.heap.thinned_collectIfDue _) (m'.heap.thinned_collectIfDue _)

/-- Entering two modules that hold the same. -/
theorem enter_sameReply {α : Type} {M : Matching} {l l' : Library} {name : String}
    {store store' : Store} {globals globals' : Globals} (f : α → Answer) (tracer : Tracer)
    {x y : Library → Run α} (same : l.Renumbered ρ l')
    (S : M.machines l ρ ⟨store, globals, .silent⟩ ⟨store', globals', .silent⟩)
    (runs : (restingPairing l ρ).Runs M (fun _ => Eq) (x l) (y l')) :
    SameReply (reply f (enter ⟨name, l, store, globals⟩ tracer x))
      (reply f (enter ⟨name, l', store', globals'⟩ tracer y)) := by
  have ends := runs (s := ⟨store, globals, tracer⟩) (t := ⟨store', globals', tracer⟩)
    ⟨⟨S.stores, S.globals, S.frozen, rfl⟩, .none⟩
  have after {N : Matching} {k k' : Machine} (S : N.machines l ρ k k') :
      Paired ⟨name, l, k.store, k.globals⟩ ⟨name, l', k'.store, k'.globals⟩ :=
    .intro same ⟨S.stores, S.globals, S.frozen, rfl⟩
  simp only [enter]
  generalize x l ⟨store, globals, tracer⟩ = r at ends ⊢
  generalize y l' ⟨store', globals', tracer⟩ = r' at ends ⊢
  cases ends with
  | ok _ states hab =>
    subst hab
    exact ⟨congrArg (Reply.mk _) states.1.tracer, (after states.1).collectIfDue⟩
  | raised e _ states =>
    exact ⟨congrArg (Reply.mk _) states.1.tracer, (after states.1).collectIfDue⟩

/-! ## Steps -/

/-- Resolution has added to both modules, each time at the end of the table. -/
theorem machines_withDraft {M : Matching} {l l' : Library} {store store' : Store}
    {globals globals' : Globals} {d d' : Draft} (same : l.Renumbered ρ l')
    (S : M.machines l ρ ⟨store, globals, .silent⟩ ⟨store', globals', .silent⟩)
    (extend : Code.Extends l.functions d.functions) (tables : Code.Renumbered ρ d.functions d'.functions) :
    Library.Renumbered ρ { l with functions := d.functions } { l' with functions := d'.functions } ∧
      M.machines { l with functions := d.functions } ρ
        ⟨{ store with lexicon := d.lexicon }, globals, .silent⟩
        ⟨{ store' with lexicon := d'.lexicon }, globals', .silent⟩ := by
  have grows : l.Grows { l with functions := d.functions } := ⟨extend, Nat.le_refl _⟩
  exact ⟨⟨⟨same.natives, same.builtins, same.methods⟩, tables⟩, S.grow grows d.lexicon d'.lexicon⟩

theorem step_exec_sameReply (h : m.Paired m') (tracked : m.Tracked H) (tracer : Tracer) (program : List Program.Stmt) :
    SameReply (m.step (.exec tracer program)) (m'.step (.exec tracer program)) := by
  obtain @⟨name, l, l', store, store', globals, globals', M, ρ, same, S⟩ := h
  have verdict : Draft.SameVerdict ρ _ (Draft.resolveProgram ⟨store.lexicon, l.functions⟩ program)
      (Draft.resolveProgram ⟨store'.lexicon, l'.functions⟩ program) :=
    Draft.resolveProgram_parallel same.functions program
  simp only [step, exec, resolve_eq]
  obtain ⟨code, d, new, hd, sound, hr⟩ | ⟨e, d, hd, -, functions, -⟩ :=
    Draft.resolveProgram_cases tracked.draft program
  · rw [hd] at verdict ⊢
    generalize Draft.resolveProgram ⟨store'.lexicon, l'.functions⟩ program = r at verdict ⊢
    obtain @⟨_, _, _, d', tables, rfl⟩ := verdict
    have extend := Code.extends_of_toList hr.functions
    have complete := (tracked.withDraft sound hr.words extend).complete
    obtain ⟨same', S'⟩ := machines_withDraft same S extend tables
    refine enter_sameReply _ tracer same' S' ?_
    exact (restingPairing_execTop complete same' code fun need hneed => (hr.allowed need hneed).offers).imp
      fun _ _ _ _ _ => rfl
  · rw [hd] at verdict ⊢
    generalize Draft.resolveProgram ⟨store'.lexicon, l'.functions⟩ program = r at verdict ⊢
    obtain _ | @⟨_, _, d', tables⟩ := verdict
    obtain ⟨same', S'⟩ := machines_withDraft same S (functions ▸ .refl _) tables
    exact ⟨rfl, .intro same' S'⟩

theorem step_eval_sameReply (h : m.Paired m') (tracked : m.Tracked H) (e : Program.Expr) :
    SameReply (m.step (.eval e)) (m'.step (.eval e)) := by
  obtain @⟨name, l, l', store, store', globals, globals', M, ρ, same, S⟩ := h
  have verdict : Draft.SameVerdict ρ _ (Draft.resolveExpr ⟨store.lexicon, l.functions⟩ e)
      (Draft.resolveExpr ⟨store'.lexicon, l'.functions⟩ e) := Draft.resolveExpr_parallel same.functions e
  simp only [step, eval, resolve_eq]
  obtain ⟨code, d, new, hd, sound, hr⟩ | ⟨defect, d, hd, -, functions, -⟩ :=
    Draft.resolveExpr_cases tracked.draft e
  · rw [hd] at verdict ⊢
    generalize Draft.resolveExpr ⟨store'.lexicon, l'.functions⟩ e = r at verdict ⊢
    obtain @⟨_, _, _, d', tables, rfl⟩ := verdict
    have extend := Code.extends_of_toList hr.functions
    have complete := (tracked.withDraft sound hr.words extend).complete
    obtain ⟨same', S'⟩ := machines_withDraft same S extend tables
    refine enter_sameReply _ .silent same' S' (restingPairing_of_pairing ?_)
    exact (pairing_evalTop complete same' code fun need hneed => (hr.allowed need hneed).offers).bind
      fun _ _ _ _ hv => pairing_unfold complete.toLinked same' hv
  · rw [hd] at verdict ⊢
    generalize Draft.resolveExpr ⟨store'.lexicon, l'.functions⟩ e = r at verdict ⊢
    obtain _ | @⟨_, _, d', tables⟩ := verdict
    obtain ⟨same', S'⟩ := machines_withDraft same S (functions ▸ .refl _) tables
    exact ⟨rfl, .intro same' S'⟩

theorem step_call_sameReply (h : m.Paired m') (tracked : m.Tracked H) (tracer : Tracer) (x : String)
    (positional : List Object) (keywords : List (String × Object)) :
    SameReply (m.step (.call tracer x positional keywords))
      (m'.step (.call tracer x positional keywords)) := by
  have complete := tracked.complete
  have paired := h
  obtain @⟨name, l, l', store, store', globals, globals', M, ρ, same, S⟩ := h
  have rules := Store.pairing_rules complete.toLinked same
  have found := Globals.lookup_agree (rules.serves M) S.globals x
  have built := rules.buildArgs positional keywords S.stores
  simp only [step, call]
  generalize globals.lookup l x = r at found ⊢
  generalize globals'.lookup l' x = r' at found ⊢
  cases found with
  | raised e => exact ⟨rfl, paired⟩
  | ok hv =>
    generalize buildArgs positional keywords store = r at built ⊢
    generalize buildArgs positional keywords store' = r' at built ⊢
    cases built with
    | raised e le stores => exact ⟨rfl, .intro same (S.of_stores le stores)⟩
    | ok le stores hargs =>
      refine enter_sameReply _ tracer same (S.of_stores le stores) (restingPairing_of_pairing ?_)
      exact (pairing_call complete same (hv.mono (le.linkedTo l ρ)) hargs).bind
        fun _ _ _ _ hv => pairing_unfold complete.toLinked same hv

theorem Paired.get_eq (h : m.Paired m') (tracked : m.Tracked H) (x : String) : m.get x = m'.get x := by
  have linked := tracked.linked
  obtain @⟨name, l, l', store, store', globals, globals', M, ρ, same, S⟩ := h
  have rules := Store.pairing_rules linked same
  have found := Globals.lookup_agree (rules.serves M) S.globals x
  simp only [Module.get]
  generalize globals.lookup l x = r at found ⊢
  generalize globals'.lookup l' x = r' at found ⊢
  cases found with
  | raised e => rfl
  | ok hv =>
    have shown := S.stores.heaps.unfold (rules.serves M) hv
    show (_ >>= fun o => pure (some o)) = (_ >>= fun o => pure (some o))
    exact congrArg (· >>= fun o => pure (some o)) shown.eq_right

theorem step_set_sameReply (h : m.Paired m') (tracked : m.Tracked H) (x : String) (o : Object) :
    SameReply (m.step (.set x o)) (m'.step (.set x o)) := by
  have linked := tracked.linked
  obtain @⟨name, l, l', store, store', globals, globals', M, ρ, same, S⟩ := h
  have rules := Store.pairing_rules linked same
  have built := ((rules.build (w := M) o).bind fun N₁ v v' _ hv => (rules.learn x).bind fun N₂ _ _ hN₂ _ =>
    .pure (R := fun (N : Matching) => (N.linkedTo l ρ).value) (rules.value_mono hN₂ hv)) S.stores
  have frozen : globals.frozen = globals'.frozen := S.frozen
  simp only [step, set, frozen]
  generalize (do let v ← o.build; Store.learn x; return v : StoreM Value) store = r at built ⊢
  generalize (do let v ← o.build; Store.learn x; return v : StoreM Value) store' = r' at built ⊢
  cases built with
  | raised e le stores => exact ⟨rfl, .intro same (S.of_stores le stores)⟩
  | ok le stores hv =>
    have S' := S.of_stores le stores
    cases globals'.frozen with
    | true => exact ⟨rfl, .intro same S'⟩
    | false => exact ⟨rfl, .intro same ⟨S'.stores, S'.globals.insert ⟨trivial, hv⟩, frozen, rfl⟩⟩

theorem Paired.freeze (h : m.Paired m') : m.freeze.Paired m'.freeze := by
  obtain ⟨same, S⟩ := h
  have S' := S.reached (φ := Heap.Cell.freeze) Heap.cell?_freezeFrom_of_reaches
    Heap.cell?_freezeFrom_of_reaches Matching.cell.freeze (fun _ => rfl) (S.stores.tidy.freezeFrom _)
    (S.stores.tidy'.freezeFrom _) S.stores.meters
  exact .intro same ⟨S'.stores, S'.globals, rfl, rfl⟩

/-- A host function is added to both modules. -/
theorem Paired.addNative (h : m.Paired m') (add : Library → Library) (grows : m.library.Grows (add m.library))
    (same : ∀ {ρ}, m.library.Renumbered ρ m'.library → (add m.library).Renumbered ρ (add m'.library)) (x : String) :
    ({ m with library := add m.library }.learn x).Paired ({ m' with library := add m'.library }.learn x) := by
  obtain @⟨name, l, l', store, store', globals, globals', M, ρ, renumbered, S⟩ := h
  exact .intro (same renumbered) (S.grow grows (store.lexicon.learn x) (store'.lexicon.learn x))

theorem renumbered_addBuiltin {l l' : Library} (same : l.Renumbered ρ l') (x : String)
    (native : HostFunction) : (l.addBuiltin x native).Renumbered ρ (l'.addBuiltin x native) := by
  refine ⟨⟨?_, ?_, same.methods⟩, same.functions⟩
  all_goals simp only [Library.addBuiltin, Library.addNative, same.natives, same.builtins]

theorem renumbered_addMethod {l l' : Library} (same : l.Renumbered ρ l') (type : ValueType)
    (x : String) (native : HostFunction) : (l.addMethod type x native).Renumbered ρ (l'.addMethod type x native) := by
  refine ⟨⟨?_, same.builtins, ?_⟩, same.functions⟩
  all_goals simp only [Library.addMethod, Library.addNative, same.natives, same.methods]

theorem Paired.sameHost (h : m.Paired m') : m.library.SameHost m'.library := by
  obtain ⟨same, -⟩ := h
  exact same.toSameHost

/-- Two modules that hold the same answer every request alike that is not about the heap. -/
theorem step_sameReply (h : m.Paired m') (tracked : m.Tracked H) {s : Step} (hs : s.aboutHeap = false) :
    SameReply (m.step s) (m'.step s) := by
  have size (e : NativeEntry) : m.library.natives.size ≤ (m.library.natives.push e).size := by simp
  cases s with
  | exec tracer program => exact step_exec_sameReply h tracked tracer program
  | eval e => exact step_eval_sameReply h tracked e
  | call tracer x positional keywords => exact step_call_sameReply h tracked tracer x positional keywords
  | get x =>
    refine ⟨?_, h⟩
    simp only [step, h.get_eq tracked x]
  | set x o => exact step_set_sameReply h tracked x o
  | names =>
    refine ⟨?_, h⟩
    obtain ⟨-, S⟩ := h
    exact congrArg (fun xs => Reply.mk (.names xs) .silent) S.globals.keys_eq
  | name =>
    refine ⟨?_, h⟩
    obtain ⟨-⟩ := h
    rfl
  | addBuiltin x native =>
    have grows : m.library.Grows (m.library.addBuiltin x native) := ⟨.refl _, size _⟩
    exact ⟨rfl, h.addNative (·.addBuiltin x native) grows
      (fun same => renumbered_addBuiltin same x native) x⟩
  | addMethod type x native =>
    have grows : m.library.Grows (m.library.addMethod type x native) := ⟨.refl _, size _⟩
    exact ⟨rfl, h.addNative (·.addMethod type x native) grows
      (fun same => renumbered_addMethod same type x native) x⟩
  | methodNames type =>
    refine ⟨?_, h⟩
    simp only [step, Library.methodNames, h.sameHost.methods]
  | freeze => exact ⟨rfl, h.freeze⟩
  | isFrozen =>
    refine ⟨?_, h⟩
    obtain ⟨-, S⟩ := h
    exact congrArg (fun b => Reply.mk (.flag b) .silent) S.frozen
  | collect => cases hs
  | census => cases hs
  | usage => cases hs

/-- A request about the heap leaves a module that holds the same. -/
theorem Paired.step_left (h : m.Paired m') {s : Step} (hs : s.aboutHeap = true) : (m.step s).2.Paired m' := by
  cases s with
  | collect => exact h.collect
  | census => exact h
  | usage => exact h
  | _ => cases hs

/-! ## Sessions -/

/-- The replies of a session to the requests that are not about the heap. -/
def visibleReplies (m : Module) (steps : List Step) : List Reply :=
  ((steps.zip (m.run steps).1).filter fun p => !p.1.aboutHeap).map Prod.snd

theorem visibleReplies_cons (m : Module) (s : Step) (steps : List Step) :
    m.visibleReplies (s :: steps) =
      if s.aboutHeap then (m.step s).2.visibleReplies steps
      else (m.step s).1 :: (m.step s).2.visibleReplies steps := by
  simp only [visibleReplies, run, List.zip_cons_cons, List.filter_cons]
  cases s.aboutHeap <;> rfl

/-- To the requests that are not about the heap, a session gives the replies that a module which holds the same
gives to them alone. -/
theorem Paired.visibleReplies_eq (h : m.Paired m') (tracked : m.Tracked H) (steps : List Step) :
    m.visibleReplies steps = (m'.run (steps.filter (!·.aboutHeap))).1 := by
  induction steps generalizing m m' H with
  | nil => rfl
  | cons s steps ih =>
    have tracked' := (stepWatched_right tracked s).tracked
    rw [visibleReplies_cons]
    cases hs : s.aboutHeap with
    | true =>
      rw [if_pos rfl, List.filter_cons_of_neg (by simp [hs])]
      exact ih (h.step_left hs) tracked'
    | false =>
      obtain ⟨reply_eq, paired⟩ := step_sameReply h tracked hs
      rw [if_neg Bool.false_ne_true, List.filter_cons_of_pos (by simp [hs]), ih paired tracked', reply_eq]
      rfl

end Module

end Scriptlet
