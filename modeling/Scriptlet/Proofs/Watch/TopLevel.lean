import Scriptlet.Proofs.Watch.Calls

/-!
# Code at module level

Between two statements of the module level a collection may take objects away, so less is kept from one to the
next than while code runs in a call: the machine stays in order, and if the globals are frozen, they and all that
they reach stay as they are.
-/

namespace Scriptlet

open Call (Args)
open Heap (Cell Frame Reaches)
open Watched (onMachine)

/-- The globals are frozen, and so is every container that they reach. -/
def Settled (g : Globals) (h : Heap) : Prop :=
  g.frozen = true ∧ ∀ {a}, Reaches h g.roots a → ∃ c, h.cell? a = some c ∧ ¬ c.Mutable

/-- If the globals are settled, they and all that they reach stay as they are. -/
def Kept (g : Globals) (h : Heap) (g' : Globals) (h' : Heap) : Prop :=
  Settled g h → g' = g ∧ ∀ {a}, Reaches h g.roots a → h'.cell? a = h.cell? a

section kept

variable {g g' g'' : Globals} {h h' h'' : Heap}

theorem Kept.refl (g : Globals) (h : Heap) : Kept g h g h := fun _ => ⟨rfl, fun _ => rfl⟩

/-- If what some roots reach stays as it is, they reach the same as before. -/
theorem reaches_iff_of_kept {roots : List Address}
    (same : ∀ {a}, Reaches h roots a → h'.cell? a = h.cell? a) {a : Address} :
    Reaches h' roots a ↔ Reaches h roots a := by
  have children {a : Address} (ha : Reaches h roots a) : h'.children a = h.children a := by
    simp only [Heap.children, same ha]
  constructor
  · refine Reaches.mem_of_closed (fun _ => .root) fun b hb c hc => ?_
    exact .child hb (children hb ▸ hc)
  · exact fun ha => ha.congr fun b hb => children hb

theorem Settled.of_kept (s : Settled g h) (k : Kept g h g' h') : Settled g' h' := by
  obtain ⟨rfl, same⟩ := k s
  refine ⟨s.1, fun {a} ha => ?_⟩
  have ha := (reaches_iff_of_kept same).1 ha
  rw [same ha]
  exact s.2 ha

theorem Kept.trans (k : Kept g h g' h') (k' : Kept g' h' g'' h'') : Kept g h g'' h'' := by
  intro s
  obtain ⟨globals', same'⟩ := k' (s.of_kept k)
  obtain ⟨rfl, same⟩ := k s
  refine ⟨globals', fun {a} ha => ?_⟩
  rw [same' ((reaches_iff_of_kept same).2 ha), same ha]

/-- What is settled does not change while the store grows and no frame changes. -/
theorem kept_of_grows {own : Address → Prop} {s s' : Store} (grows : s.Grows own s')
    (own_none : ∀ a, ¬ own a) (globals : g.frozen = true → g' = g) : Kept g s.heap g' s'.heap := by
  intro settled
  refine ⟨globals settled.1, fun {a} ha => ?_⟩
  obtain ⟨c, hc, immutable⟩ := settled.2 ha
  obtain ⟨c', hc', e⟩ := grows.kept hc
  obtain rfl | ⟨mutable, -⟩ | own := e.eq_or
  · rw [hc, hc']
  · exact absurd mutable immutable
  · exact absurd own (own_none a)

/-- Code at module level does not change what is settled. -/
theorem Watch.Later.kept {assigns : Prop} {w w' : Watch} (later : Watch.Later none assigns w w') :
    Kept w.machine.globals w.machine.store.heap w'.machine.globals w'.machine.store.heap :=
  kept_of_grows later.store (fun a => (Option.some_ne_none a).symm) fun hf => later.globals fun _ => hf

/-- A collection keeps all that the globals reach. -/
theorem kept_collect (g : Globals) (h : Heap) : Kept g h g (h.collect g.roots).2 :=
  fun _ => ⟨rfl, Heap.cell?_collect_of_reaches⟩

/-- What lasts from one request to the next: what is settled, and the terms of the meter. -/
structure Lasts (g : Globals) (h : Heap) (g' : Globals) (h' : Heap) : Prop where
  kept : Kept g h g' h'
  meter : h'.meter.reset = h.meter.reset

theorem Lasts.refl (g : Globals) (h : Heap) : Lasts g h g h := ⟨.refl g h, rfl⟩

theorem Lasts.trans (k : Lasts g h g' h') (k' : Lasts g' h' g'' h'') : Lasts g h g'' h'' :=
  ⟨k.kept.trans k'.kept, k'.meter.trans k.meter⟩

theorem lasts_collect (g : Globals) (h : Heap) : Lasts g h g (h.collect g.roots).2 := by
  obtain ⟨freed, meter⟩ := h.meter_collect g.roots
  exact ⟨kept_collect g h, meter ▸ h.meter.reset_refund freed⟩

theorem Watch.Later.lasts {assigns : Prop} {w w' : Watch} (later : Watch.Later none assigns w w') :
    Lasts w.machine.globals w.machine.store.heap w'.machine.globals w'.machine.store.heap :=
  ⟨later.kept, later.store.meter⟩

end kept

/-- A watched run at module level beside the run itself. -/
def resting (l : Library) (word : String → Prop) : Simulation Watch Machine Watch where
  le w w' := Lasts w.machine.globals w.machine.store.heap w'.machine.globals w'.machine.store.heap
  refl _ := .refl _ _
  trans := .trans
  states := (watching l word True []).states

section toplevel

variable {l : Library} {word : String → Prop} {assigns : Prop} {w : Watch}

/-- Code at module level, as far as the next statement can rely on it. -/
theorem resting_of_watching {α β : Type} {R : Watch → α → β → Prop} {x : Watched α} {y : Run β}
    (h : (watching l word assigns []).Runs w R x y) : (resting l word).Runs w R x y := by
  intro s t hst
  have ends := h hst
  generalize x s = p at ends ⊢
  generalize y t = q at ends ⊢
  cases ends with
  | ok le states h => exact .ok (Watch.Later.lasts le) states h
  | raised e le states => exact .raised e (Watch.Later.lasts le) states

theorem Machine.Sound.collected {m : Machine} (h : m.Sound l) :
    Machine.Sound l (m.withHeap (m.store.heap.collect m.globals.roots).2) := by
  refine ⟨h.store.collected _, h.globals.imp_values fun x v v' hmem hv => ⟨hv.1, ?_⟩⟩
  have keeps : (m.store.view l).Keeps
      (Store.view l { m.store with heap := (m.store.heap.collect m.globals.roots).2 })
      (· ∈ m.globals.roots) := by
    refine ⟨?_, ?_, id, id, id⟩
    · rintro a _ ha ⟨rfl, c, hc, hk⟩
      exact ⟨rfl, c, Heap.cell?_collect_eq_some.2 ⟨.root ha, hc⟩, hk⟩
    · rintro a _ ha ⟨rfl, f, hf, captured⟩
      exact ⟨rfl, f, Heap.cell?_collect_eq_some.2 ⟨.root ha, hf⟩, captured⟩
  exact keeps.value hv.2 fun a ha => List.mem_filterMap.2 ⟨v, hmem, ha⟩

theorem Machine.Tracked.collected {m : Machine} {H : History} (h : m.Tracked l word H) :
    Machine.Tracked l word (m.withHeap (m.store.heap.collect m.globals.roots).2) H where
  sound := h.sound.collected
  words := h.words
  tracks := h.tracks.restrict h.sound.collected.store fun hc => (Heap.cell?_collect_eq_some.1 hc).2

/-- Collecting between two statements. -/
theorem resting_collectIfDue :
    (resting l word).Runs w (fun _ _ _ => True) (onMachine Run.collectIfDue) Run.collectIfDue := by
  rintro s t ⟨rfl, rfl, sound, -⟩
  have tracked := sound.tracked.collected
  obtain ⟨⟨⟨heap, lexicon⟩, globals, tracer⟩, history, moments⟩ := s
  simp only [onMachine, Run.collectIfDue]
  split
  · have lasts : (resting l word).le ⟨⟨⟨heap, lexicon⟩, globals, tracer⟩, history, moments⟩
        ⟨⟨⟨(heap.collect globals.roots).2, lexicon⟩, globals, tracer⟩, history, moments⟩ :=
      lasts_collect globals heap
    exact .ok lasts ⟨rfl, rfl, ⟨tracked, sound.moments⟩, Lineage.live_nil _ _⟩ trivial
  · exact .ok (.refl _ _) ⟨rfl, rfl, sound, Lineage.live_nil _ _⟩ trivial

/-- What the machine offers to code at module level. -/
theorem engineMatch_topLevel (hl : l.Linked) {D : Code.Need → Prop}
    (asked : ∀ need, D need → Asked l word [] need) (module : ∀ x, D (.store x) → assigns) (limit : Nat) :
    EngineMatch (watching l word assigns []) (Watch.view l) D (Watched.topLevel l limit)
      (Run.topLevel l limit).engine :=
  engineMatch_watched hl asked (fun x hx _ => module x hx) rfl rfl (watching_callWithin hl limit limit)

/-- An expression at module level assigns to nothing. -/
theorem watching_evalTop (hl : l.Linked) (e : Code.Expr) (asked : ∀ need ∈ e.needs, Asked l word [] need) :
    (watching l word assigns []).Runs w (fun w' => (w'.view l).value) (Watched.evalTop l e)
      (Run.evalTop l e) := by
  intro s t hst
  obtain rfl : t = s.machine := hst.2.1.trans (congrArg Watch.machine hst.1.symm)
  exact (engineMatch_topLevel hl asked (fun x hx => absurd hx (e.store_not_mem_needs x)) _).eval e
    (fun _ => id) hst

theorem watching_call (hl : l.Linked) {v v' : Value} {args args' : Args} (hv : (w.view l).value v v')
    (hargs : (w.view l).args args args') :
    (watching l word assigns []).Runs w (fun w' => (w'.view l).value) (Watched.call l v args)
      (Run.call l v' args') := by
  intro s t hst
  obtain rfl : t = s.machine := hst.2.1.trans (congrArg Watch.machine hst.1.symm)
  exact watching_callWithin hl _ _ hv hargs hst

/-- Showing a value to the host. -/
theorem watching_unfold (hl : l.Linked) {v v' : Value} (hv : (w.view l).value v v') :
    (watching l word assigns []).Runs w (fun _ => Eq) (onMachine (Run.inspect (v.unfold l)))
      (Run.inspect (v'.unfold l)) :=
  have rules := Store.soundness_rules hl
  watching_onStore (rules.inspect (R := fun _ => Eq) fun _ _ _ A => A.unfold (rules.serves _) hv)

/-- Evaluating an expression for the host. -/
theorem watching_evalShown (hl : l.Linked) (e : Code.Expr) (asked : ∀ need ∈ e.needs, Asked l word [] need) :
    (watching l word False []).Runs w (fun _ => Eq)
      (do let v ← Watched.evalTop l e; onMachine (Run.inspect (v.unfold l)))
      (do let v ← Run.evalTop l e; Run.inspect (v.unfold l)) :=
  (watching_evalTop hl e asked).bind fun _ _ _ _ hv => watching_unfold hl hv

/-- Calling a value for the host. -/
theorem watching_callShown (hl : l.Linked) {v v' : Value} {args args' : Args}
    (hv : (w.view l).value v v') (hargs : (w.view l).args args args') :
    (watching l word False []).Runs w (fun _ => Eq)
      (do let u ← Watched.call l v args; onMachine (Run.inspect (u.unfold l)))
      (do let u ← Run.call l v' args'; Run.inspect (u.unfold l)) :=
  (watching_call hl hv hargs).bind fun _ _ _ _ hu => watching_unfold hl hu

/-- Running the statements of the module level, one after another. -/
theorem resting_execAll (hl : l.Linked) (limit : Nat) (program : List Code.Stmt)
    (asked : ∀ need ∈ Code.blockNeeds program, Asked l word [] need) :
    (resting l word).Runs w (fun _ _ _ => True) (Watched.execAll (Watched.topLevel l limit) program)
      (Run.execAll (Run.topLevel l limit).engine program) := by
  induction program generalizing w with
  | nil => exact .pure trivial
  | cons s ss ih =>
    rw [Code.blockNeeds, List.forall_mem_append] at asked
    have first : ∀ need ∈ Code.blockNeeds [s], Asked l word [] need := by
      simpa [Code.blockNeeds] using asked.1
    have engine : EngineMatch (watching l word True []) (Watch.view l) (Asked l word [])
        (Watched.topLevel l limit) (Run.topLevel l limit).engine :=
      engineMatch_topLevel hl (fun _ => id) (fun _ _ => trivial) limit
    refine (resting_of_watching (engine.execBlock [s] first)).bind fun _ _ _ _ _ => ?_
    exact resting_collectIfDue.bind fun _ _ _ _ _ => ih asked.2

theorem resting_execTop (hl : l.Linked) (program : List Code.Stmt)
    (asked : ∀ need ∈ Code.blockNeeds program, Asked l word [] need) :
    (resting l word).Runs w (fun _ _ _ => True) (Watched.execTop l program)
      (Run.execTop l program) := by
  intro s t hst
  obtain rfl : t = s.machine := hst.2.1.trans (congrArg Watch.machine hst.1.symm)
  exact resting_execAll hl _ program asked hst

end toplevel

end Scriptlet
