import Scriptlet.Module.Entry
import Scriptlet.Proofs.Pairing.Calls

/-!
# Collecting on two machines

Between two statements of the module level each of two machines may collect or not. What the globals reach stays,
so the machines still hold the same as far as the globals reach, and nothing else can be seen.
-/

namespace Scriptlet

open Call (Args)
open Heap (Cell Reaches)
open Machine (pairing)

/-! ## Collections -/

/-- The second heap is the first one as far as the roots reach, and some memory may have been given back. -/
structure Heap.Thinned (h : Heap) (roots : List Address) (k : Heap) : Prop where
  tidy : h.Tidy → k.Tidy
  cell? : ∀ {a}, Reaches h roots a → k.cell? a = h.cell? a
  meter : ∃ freed, k.meter = h.meter.refund freed

section thinned

variable {h : Heap} {roots : List Address}

theorem Heap.thinned_self (h : Heap) (roots : List Address) : h.Thinned roots h :=
  ⟨id, fun _ => rfl, 0, h.meter.refund_zero.symm⟩

theorem Heap.thinned_collect (h : Heap) (roots : List Address) : h.Thinned roots (h.collect roots).2 :=
  ⟨fun tidy => tidy.collect roots, Heap.cell?_collect_of_reaches, h.meter_collect roots⟩

/-- Collecting if it is time to. -/
theorem Heap.thinned_collectIfDue (h : Heap) (roots : List Address) :
    h.Thinned roots (if h.collectionDue then (h.collect roots).2 else h) := by
  split
  · exact h.thinned_collect roots
  · exact h.thinned_self roots

end thinned

namespace Matching.machines

variable {M : Matching} {l : Library} {ρ : Renumbering} {m m' : Machine} {k k' : Heap}

/-- As far as the globals reach, two machines still hold the same if all that the globals reach has undergone the
same change `φ`, whatever became of the rest. -/
theorem reached (S : M.machines l ρ m m') {φ : Cell → Cell}
    (hk : ∀ {x}, Reaches m.store.heap m.globals.roots x → k.cell? x = (m.store.heap.cell? x).map φ)
    (hk' : ∀ {y}, Reaches m'.store.heap m'.globals.roots y → k'.cell? y = (m'.store.heap.cell? y).map φ)
    (cell : ∀ {N : Matching} {c d}, N.cell c d → N.cell (φ c) (φ d))
    (frame : ∀ f, φ (.frame f) = .frame f) (tidy : k.Tidy) (tidy' : k'.Tidy)
    (meters : k.meter.SameUpToCollection k'.meter) :
    (M.restrict (Reaches m.store.heap m.globals.roots)).machines l ρ (m.withHeap k) (m'.withHeap k') := by
  have heaps := S.stores.heaps.reached (Globals.referents_roots S.globals) hk hk' cell frame
  have keeps := (M.linkedTo l ρ).keeps_restrict (Reaches m.store.heap m.globals.roots)
  refine ⟨⟨heaps, tidy, tidy', meters⟩, ?_, S.frozen, S.tracer⟩
  refine S.globals.imp_values fun x v v' hmem hv => ⟨hv.1, keeps.value hv.2 fun a ha => ?_⟩
  exact .root (List.mem_filterMap.2 ⟨v, hmem, ha⟩)

/-- As far as the globals reach, two machines still hold the same after either of them has collected or not. -/
theorem thinned (S : M.machines l ρ m m') (hk : m.store.heap.Thinned m.globals.roots k)
    (hk' : m'.store.heap.Thinned m'.globals.roots k') :
    (M.restrict (Reaches m.store.heap m.globals.roots)).machines l ρ (m.withHeap k) (m'.withHeap k') := by
  have meters : k.meter.SameUpToCollection k'.meter := by
    obtain ⟨freed, hm⟩ := hk.meter
    obtain ⟨freed', hm'⟩ := hk'.meter
    rw [hm, hm']
    exact (S.stores.meters.refund_left freed).refund_right freed'
  refine S.reached (φ := id) (fun hx => ?_) (fun hy => ?_) id (fun _ => rfl) (hk.tidy S.stores.tidy)
    (hk'.tidy S.stores.tidy') meters
  · rw [Option.map_id, hk.cell? hx]
    rfl
  · rw [Option.map_id, hk'.cell? hy]
    rfl

end Matching.machines

/-! ## Code at module level -/

/-- Two machines at module level. From one statement to the next they go on holding the same, but not
necessarily at the same addresses. -/
def Machine.restingPairing (l : Library) (ρ : Renumbering) : Simulation Machine Machine Matching where
  le _ _ := True
  refl _ := trivial
  trans _ _ := trivial
  states := (pairing l ρ none none).states

open Machine (restingPairing)

section toplevel

variable {l l' : Library} {ρ : Renumbering} {M : Matching}

theorem restingPairing_of_pairing {α β : Type} {R : Matching → α → β → Prop} {x : Run α} {y : Run β}
    (h : (pairing l ρ none none).Runs M R x y) : (restingPairing l ρ).Runs M R x y := by
  intro s t hst
  have ends := h hst
  generalize x s = r at ends ⊢
  generalize y t = r' at ends ⊢
  cases ends with
  | ok le states h => exact .ok trivial states h
  | raised e le states => exact .raised e trivial states

/-- Each machine collects if it is time to, which may differ between them. -/
theorem restingPairing_collectIfDue :
    (restingPairing l ρ).Runs M (fun _ _ _ => True) Run.collectIfDue Run.collectIfDue := by
  rintro m m' ⟨S, frames⟩
  have S' := S.thinned (m.store.heap.thinned_collectIfDue _) (m'.store.heap.thinned_collectIfDue _)
  exact .ok trivial ⟨S', .none⟩ trivial

/-- What two machines offer to code at module level. -/
theorem engineMatch_topLevel_pairing (hl : l.Complete) (same : l.Renumbered ρ l') (limit : Nat) :
    EngineMatch (pairing l ρ none none) (fun M => M.linkedTo l ρ) l.Offers (Run.topLevel l limit).engine
      ((Run.topLevel l' limit).engine.relabel ρ) :=
  engineMatch_pairing hl.toLinked same rfl rfl rfl rfl rfl (pairing_callWithin hl same limit limit)

theorem pairing_evalTop (hl : l.Complete) (same : l.Renumbered ρ l') (e : Code.Expr)
    (needs : ∀ need ∈ e.needs, l.Offers need) :
    (pairing l ρ none none).Runs M (fun N => (N.linkedTo l ρ).value) (Run.evalTop l e)
      (Run.evalTop l' (e.renumber ρ)) := by
  rintro m m' ⟨S, frames⟩
  unfold Run.evalTop
  rw [S.stores.meters.depthLimit_eq, Engine.eval_renumber]
  exact (engineMatch_topLevel_pairing hl same _).eval e needs ⟨S, frames⟩

theorem pairing_call (hl : l.Complete) (same : l.Renumbered ρ l') {v v' : Value} {args args' : Args}
    (hv : (M.linkedTo l ρ).value v v') (hargs : (M.linkedTo l ρ).args args args') :
    (pairing l ρ none none).Runs M (fun N => (N.linkedTo l ρ).value) (Run.call l v args)
      (Run.call l' v' args') := by
  rintro m m' ⟨S, frames⟩
  unfold Run.call
  rw [S.stores.meters.depthLimit_eq]
  exact pairing_callWithin hl same _ _ hv hargs ⟨S, frames⟩

/-- Values that stand for each other are shown to the host as the same object. -/
theorem pairing_unfold (hl : l.Linked) (same : l.Renumbered ρ l') {v v' : Value} (hv : (M.linkedTo l ρ).value v v') :
    (pairing l ρ none none).Runs M (fun _ => Eq) (Run.inspect (v.unfold l))
      (Run.inspect (v'.unfold l')) :=
  have rules := Store.pairing_rules hl same
  pairing_onStore (rules.inspect (R := fun _ => Eq) fun _ _ _ A => A.unfold (rules.serves _) hv)

/-- Running the statements of the module level, one after another. -/
theorem restingPairing_execAll (hl : l.Complete) (same : l.Renumbered ρ l') (limit : Nat) (program : List Code.Stmt)
    (needs : ∀ need ∈ Code.blockNeeds program, l.Offers need) :
    (restingPairing l ρ).Runs M (fun _ _ _ => True)
      (Run.execAll (Run.topLevel l limit).engine program)
      (Run.execAll (Run.topLevel l' limit).engine (Code.renumberBlock ρ program)) := by
  induction program generalizing M with
  | nil => exact .pure trivial
  | cons s ss ih =>
    rw [Code.blockNeeds, List.forall_mem_append] at needs
    have first : ∀ need ∈ Code.blockNeeds [s], l.Offers need := by
      simpa [Code.blockNeeds] using needs.1
    have runs := (engineMatch_topLevel_pairing hl same limit).execBlock (w := M) [s] first
    rw [← Engine.execBlock_renumber] at runs
    refine (restingPairing_of_pairing runs).bind fun _ _ _ _ _ => ?_
    exact restingPairing_collectIfDue.bind fun _ _ _ _ _ => ih needs.2

theorem restingPairing_execTop (hl : l.Complete) (same : l.Renumbered ρ l') (program : List Code.Stmt)
    (needs : ∀ need ∈ Code.blockNeeds program, l.Offers need) :
    (restingPairing l ρ).Runs M (fun _ _ _ => True) (Run.execTop l program)
      (Run.execTop l' (Code.renumberBlock ρ program)) := by
  rintro m m' ⟨S, frames⟩
  unfold Run.execTop
  rw [S.stores.meters.depthLimit_eq]
  exact restingPairing_execAll hl same _ program needs ⟨S, frames⟩

end toplevel

end Scriptlet
