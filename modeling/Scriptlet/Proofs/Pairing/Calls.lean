import Scriptlet.Proofs.Pairing.Machine

/-!
# Calls on two machines

Matching calls on two machines that hold the same do the same. The frames that they open stand for each other
until they are released.
-/

namespace Scriptlet

open Call (Args)
open Heap (Closure Frame)
open Machine (pairing)

/-- A library whose names and functions refer only to what it holds. -/
structure Library.Complete (l : Library) : Prop extends Library.Linked l where
  function : ∀ {id : FunctionId} {f : Code.Function}, l.functions[id.index]? = some f →
    f.signature.Numbered ∧ ∀ need ∈ f.body.needs, l.Offers need

variable {l l' : Library} {ρ : Renumbering} {M N : Matching} {p q : Option Address} {m m' : Machine}

/-- When a call is over, the frames of both sides are released or both are kept. -/
theorem Matching.machines.leave (S : M.machines l ρ m m') (e : Trace.Event) {a b : Address} (hab : M.frame a b) :
    ∃ (N : Matching) (k k' : Machine), Run.leave e a m = .ok () k ∧ Run.leave e b m' = .ok () k' ∧
      N.machines l ρ k k' ∧ (∀ {v w}, (M.linkedTo l ρ).value v w → (N.linkedTo l ρ).value v w) ∧
      ∀ {L : Matching}, L.Le M → (∀ {x y}, L.frame x y → x ≠ a) → L.Le N := by
  obtain ⟨⟨heap, lexicon⟩, globals, tracer⟩ := m
  obtain ⟨⟨heap', lexicon'⟩, globals', tracer'⟩ := m'
  have stores := S.stores
  have tracers := congrArg (·.observe e) S.tracer
  obtain ⟨f, g, hf, hg, hfg⟩ := stores.heaps.frame hab
  have left := Run.onStore_onHeap_ok (m := ⟨⟨heap, lexicon⟩, globals, tracer.observe e⟩)
    (Heap.releaseFrame_frame hf)
  have right := Run.onStore_onHeap_ok (m := ⟨⟨heap', lexicon'⟩, globals', tracer'.observe e⟩)
    (Heap.releaseFrame_frame hg)
  rw [← hfg.captured] at right
  cases hc : f.captured with
  | true =>
    rw [hc, if_pos rfl] at left right
    exact ⟨M, _, _, left, right, ⟨stores, S.globals, S.frozen, tracers⟩, id, fun le _ => le⟩
  | false =>
    rw [hc, if_neg Bool.false_ne_true] at left right
    have keeps := (M.linkedTo l ρ).keeps_withoutFrame a
    refine ⟨M.withoutFrame a, _, _, left, right, ⟨⟨?_, ?_, ?_, ?_⟩, ?_, S.frozen, tracers⟩,
      fun hv => keeps.value hv fun _ _ => trivial, fun le apart => ?_⟩
    · exact stores.heaps.released hab hf hc
    · exact stores.tidy.discard a
    · exact stores.tidy'.discard b
    · show (heap.discard a).meter.SameUpToCollection (heap'.discard b).meter
      simp only [Heap.discard, hf, hg]
      exact (stores.meters.refund_left _).refund_right _
    · exact S.globals.imp fun _ _ _ hv => ⟨hv.1, keeps.value hv.2 fun _ _ => trivial⟩
    · exact ⟨le.object, fun hxy => ⟨le.frame hxy, apart hxy⟩, le.captured, le.word, le.native,
        le.function⟩

/-- The bodies of two calls end alike for their callers if they do so in the calls. -/
theorem pairing_guarded {a b : Address} {x y : Run Value} (name : String) (e : Trace.Event)
    (outer : p.Rel M.frame q) (le : M.Le N) (apart : ∀ {x y}, M.frame x y → x ≠ a)
    (body : (pairing l ρ (some a) (some b)).Ends N (fun N => (N.linkedTo l ρ).value) (x m) (y m')) :
    (pairing l ρ p q).Ends M (fun N => (N.linkedTo l ρ).value) (Run.guarded name x (Run.leave e a) m)
      (Run.guarded name y (Run.leave e b) m') := by
  unfold Run.guarded
  generalize x m = r at body ⊢
  generalize y m' = r' at body ⊢
  cases body with
  | ok inside states hv =>
    obtain ⟨S, ⟨hab⟩⟩ := states
    obtain ⟨N', k, k', left, right, S', values, outside⟩ := S.leave e hab
    have le' := outside (le.trans inside) apart
    simp only [bind_of_ok left, bind_of_ok right]
    exact .ok le' ⟨S', Matching.rel_imp le'.frame outer⟩ (values hv)
  | raised e' inside states =>
    obtain ⟨S, ⟨hab⟩⟩ := states
    obtain ⟨N', k, k', left, right, S', -, outside⟩ := S.leave e hab
    have le' := outside (le.trans inside) apart
    simp only [bind_of_ok left, bind_of_ok right]
    exact .raised _ le' ⟨S', Matching.rel_imp le'.frame outer⟩

/-- Calling functions that stand for each other. -/
theorem pairing_callFunction (hl : l.Complete) (same : l.Renumbered ρ l') {depth : Nat}
    {call call' : Value → Args → Run Value}
    (hcall : ∀ {p q M v v' args args'}, (M.linkedTo l ρ).value v v' → (M.linkedTo l ρ).args args args' →
      (pairing l ρ p q).Runs M (fun N => (N.linkedTo l ρ).value) (call v args) (call' v' args'))
    {c d : Closure} {args args' : Args} (hcd : (M.linkedTo l ρ).cell (.closure c) (.closure d))
    (hargs : (M.linkedTo l ρ).args args args') :
    (pairing l ρ p q).Runs M (fun N => (N.linkedTo l ρ).value) (Run.callFunction l depth call c args)
      (Run.callFunction l' depth call' d args') := by
  have rules := Store.pairing_rules hl.toLinked same
  cases hcd with
  | @closure id _ vs ws parent parent' known defaults captured =>
    obtain ⟨rfl, f, hf, hcount⟩ := known
    obtain ⟨numbered, needs⟩ := hl.function hf
    have found : l.function id = .ok f := by simp only [Library.function, hf]
    have found' : l'.function (ρ id) = .ok (f.renumber ρ) := by
      simp only [Library.function, same.functions.function hf]
    rw [Run.callFunction_eq found, Run.callFunction_eq found']
    refine (pairing_onStore (rules.bind numbered (fun _ _ => trivial) defaults hcount.symm hargs)).bind
      fun N bindings bindings' hN hb => ?_
    rintro s t ⟨S, frames⟩
    have hfg : (N.linkedTo l ρ).frames ⟨.ofList bindings, parent, false⟩ ⟨.ofList bindings', parent', false⟩ :=
      ⟨.ofList hb, Matching.rel_imp hN.captured captured, rfl⟩
    obtain ⟨e, ha, hb⟩ | ⟨a, b, k, k', ha, hb, placed, placed', meters⟩ := S.stores.allocate_cases
      (.frame ⟨.ofList bindings, parent, false⟩) (.frame ⟨.ofList bindings', parent', false⟩)
    · rw [bind_of_error (Run.onStore_onHeap_error ha), bind_of_error (Run.onStore_onHeap_error hb)]
      exact .raised e (.refl N) ⟨S, frames⟩
    · rw [bind_of_ok (Run.onStore_onHeap_ok ha), bind_of_ok (Run.onStore_onHeap_ok hb)]
      have le := N.le_withFrame a b
      have apart {x y : Address} (hxy : N.frame x y) : x ≠ a :=
        (S.stores.heaps.ne_of_fresh (.inr hxy) placed.fresh placed'.fresh).1
      have states : (pairing l ρ (some a) (some b)).states (N.withFrame a b)
          ⟨{ s.store with heap := k }, s.globals, s.tracer.observe (.enter f.name depth)⟩
          ⟨{ t.store with heap := k' }, t.globals, t.tracer.observe (.enter f.name depth)⟩ :=
        ⟨⟨S.stores.placed_frame placed placed' meters hfg,
          S.globals.imp fun _ _ _ hv => hv.mono (le.linkedTo l ρ), S.frozen,
          congrArg (·.observe (.enter f.name depth)) S.tracer⟩, .some (.inr ⟨rfl, rfl⟩)⟩
      have engine : EngineMatch (pairing l ρ (some a) (some b)) (fun M => M.linkedTo l ρ) l.Offers
          (Activation.engine ⟨l, depth, some a, call⟩)
          ((Activation.engine ⟨l', depth, some b, call'⟩).relabel ρ) :=
        engineMatch_pairing hl.toLinked same rfl rfl rfl rfl rfl hcall
      have body := engine.execBody f.body needs states
      rw [← Engine.execBody_renumber] at body
      exact pairing_guarded f.name (.leave f.name (depth - 1)) frames le apart body

/-- Calling a host function. -/
theorem pairing_callNative (hl : l.Linked) (same : l.Renumbered ρ l') (depth : Nat) {id : NativeId}
    {receiver receiver' : Option Value} {args args' : Args} (known : (M.linkedTo l ρ).native id)
    (hr : receiver.Rel (M.linkedTo l ρ).value receiver') (hargs : (M.linkedTo l ρ).args args args') :
    (pairing l ρ p q).Runs M (fun N => (N.linkedTo l ρ).value) (Run.callNative l depth id receiver args)
      (Run.callNative l' depth id receiver' args') := by
  have rules := Store.pairing_rules hl same
  obtain ⟨e, he, he'⟩ := Alike.native_ok (rules.serves M) known
  rw [Run.callNative_eq he, Run.callNative_eq he']
  refine (pairing_observe _).bind fun N _ _ hN _ => ?_
  have le := hN.linkedTo l ρ
  have hcall : (N.linkedTo l ρ).nativeCall ⟨e.name, receiver, args⟩ ⟨e.name, receiver', args'⟩ :=
    ⟨rfl, Matching.rel_imp (Matching.value.mono le) hr, hargs.mono le⟩
  exact .guarded e.name (fun h hv => hv.mono (Matching.Le.linkedTo h l ρ))
    (pairing_onStore (rules.runNative e.native hcall)) fun {_} => pairing_observe _

/-- Matching calls do the same on both machines. -/
theorem pairing_callWithin (hl : l.Complete) (same : l.Renumbered ρ l') (limit budget : Nat)
    {p q : Option Address} {M : Matching} {v v' : Value} {args args' : Args} (hv : (M.linkedTo l ρ).value v v')
    (hargs : (M.linkedTo l ρ).args args args') :
    (pairing l ρ p q).Runs M (fun N => (N.linkedTo l ρ).value) (Run.callWithin l limit budget v args)
      (Run.callWithin l' limit budget v' args') := by
  have rules := Store.pairing_rules hl.toLinked same
  induction budget generalizing p q M v v' args args' with
  | zero =>
    rw [Run.callWithin_zero, Run.callWithin_zero]
    exact (pairing_onStore (rules.inspect (R := fun N => (N.linkedTo l ρ).callee)
      fun _ _ _ A => A.callee hv)).bind fun _ _ _ _ _ => .raise _
  | succ budget ih =>
    rw [Run.callWithin, Run.callWithin]
    refine (pairing_onStore (rules.inspect (R := fun N => (N.linkedTo l ρ).callee)
      fun _ _ _ A => A.callee hv)).bind fun N c d hN hcd => ?_
    have hargs₁ := hargs.mono (hN.linkedTo l ρ)
    cases hcd with
    | native known receiver => exact pairing_callNative hl.toLinked same _ known receiver hargs₁
    | function hcd => exact pairing_callFunction hl same ih hcd hargs₁

end Scriptlet
