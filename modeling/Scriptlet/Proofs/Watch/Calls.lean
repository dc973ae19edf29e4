import Scriptlet.Proofs.Watch.Activation

/-!
# Watched calls

A watched call does what the call does. Inside, the frame of the call is new; outside, nothing is left of it but
what the call has put on the heap.
-/

namespace Scriptlet

open Call (Args)
open Heap (Cell Closure Frame)
open Watched (note onMachine)

variable {l : Library} {word : String → Prop} {assigns : Prop} {L : Lineage} {w : Watch}
  {r : CallRecord} {maker : Lineage} {c : Closure}

/-- What becomes of a machine when the frame of a call is released. -/
theorem watch_released (sound : w.Sound l word) (live : Lineage.Live (r :: L) w.history w.machine.store.heap) :
    ∃ heap, Heap.releaseFrame r.frame w.machine.store.heap = .ok () heap ∧
      Watch.Sound l word { w with machine := w.machine.withHeap heap } ∧
      (∀ b, r.frame ≠ b → heap.cell? b = w.machine.store.heap.cell? b) ∧
      heap.meter.reset = w.machine.store.heap.meter.reset ∧
      ∀ {v v'}, (w.view l).value v v' →
        (Watch.view l { w with machine := w.machine.withHeap heap }).value v v' := by
  obtain ⟨-, f, hf⟩ := live r rfl
  have step := Heap.releaseFrame_frame hf
  cases hc : f.captured with
  | true =>
    rw [hc, if_pos rfl] at step
    exact ⟨_, step, sound, fun _ _ => rfl, rfl, id⟩
  | false =>
    have tracked := sound.tracked
    have keeps := Store.keeps_discard (l := l) hf hc fun _ => True
    have store := tracked.sound.store.released hf hc
    obtain ⟨freed, meter⟩ := w.machine.store.heap.meter_discard r.frame
    rw [hc, if_neg (by simp)] at step
    refine ⟨_, step, ⟨⟨⟨store, ?_⟩, tracked.words, ?_⟩, sound.moments⟩, fun b hb => ?_,
      (congrArg _ meter).trans (Budget.Meter.reset_refund _ _), fun hv => keeps.value hv fun _ _ => trivial⟩
    · exact tracked.sound.globals.imp fun _ _ _ hv =>
        ⟨hv.1, keeps.value hv.2 fun _ _ => trivial⟩
    · exact tracked.tracks.restrict store Store.cell?_of_discard
    · rw [Heap.cell?_discard, if_neg hb]

/-- A call that is over leaves to its caller what may follow while the caller's code runs. -/
theorem later_of_call {w₀ w₁ w₂ w₃ : Watch} {own : Option Address} (fresh : w₀.machine.store.heap.cell? r.frame = none)
    (before : Watch.Later own assigns w₀ w₁) (inside : Watch.Later (some r.frame) False w₁ w₂)
    (after : ∀ b, r.frame ≠ b → w₃.machine.store.heap.cell? b = w₂.machine.store.heap.cell? b)
    (meter : w₃.machine.store.heap.meter.reset = w₂.machine.store.heap.meter.reset)
    (words : w₃.machine.store.lexicon = w₂.machine.store.lexicon)
    (history : w₃.history = w₂.history) (globals : w₃.machine.globals = w₂.machine.globals) :
    Watch.Later own assigns w₀ w₃ := by
  have other {b : Address} {c : Cell} (hb : w₀.machine.store.heap.cell? b = some c) : r.frame ≠ b := by
    rintro rfl
    exact Option.some_ne_none c (hb.symm.trans fresh)
  refine ⟨⟨fun x hx => ?_, fun {b c} hb => ?_, ?_⟩, fun {b c} hb => ?_, ?_, fun hf => ?_⟩
  · rw [words]
    exact inside.store.words x (before.store.words x hx)
  · obtain ⟨c₁, hc₁, e₁⟩ := before.store.kept hb
    obtain ⟨c₂, hc₂, e₂⟩ := inside.store.kept hc₁
    refine ⟨c₂, (after b (other hb)).trans hc₂, e₁.trans (e₂.imp fun h => ?_)⟩
    exact absurd (Option.some.inj h) (other hb)
  · rw [meter, inside.store.meter, before.store.meter]
  · obtain ⟨c₁, hc₁, -⟩ := before.store.kept hb
    rw [history, inside.origin hc₁, before.origin hb]
  · rw [globals, inside.frozen, before.frozen]
  · rw [globals, inside.globals False.elim, before.globals hf]

/-- The body of a call ends alike for its caller if it does so in the call. -/
theorem watching_guarded {w₀ w₁ : Watch} {x : Watched Value}
    {y : Run Value} (name : String) (e : Trace.Event) (live : L.Live w₀.history w₀.machine.store.heap)
    (fresh : w₀.machine.store.heap.cell? r.frame = none) (before : Watch.Later L.frame? assigns w₀ w₁)
    (body : (watching l word False (r :: maker)).Ends w₁ (fun w' => (w'.view l).value) (x w₁) (y w₁.machine)) :
    (watching l word assigns L).Ends w₀ (fun w' => (w'.view l).value)
      (Run.guarded name x (onMachine (Run.leave e r.frame)) w₁)
      (Run.guarded name y (Run.leave e r.frame) w₁.machine) := by
  have afterwards {w₂ : Watch} (inside : Watch.Later (some r.frame) False w₁ w₂) (sound : w₂.Sound l word)
      (live' : Lineage.Live (r :: maker) w₂.history w₂.machine.store.heap) :
      ∃ w₃ : Watch, onMachine (Run.leave e r.frame) w₂ = .ok () w₃ ∧
        Run.leave e r.frame w₂.machine = .ok () w₃.machine ∧ Watch.Later L.frame? assigns w₀ w₃ ∧
        (watching l word assigns L).states w₃ w₃ w₃.machine ∧
        ∀ {v v'}, (w₂.view l).value v v' → (w₃.view l).value v v' := by
    obtain ⟨heap, step, sound', after, meter, values⟩ := watch_released sound live'
    obtain ⟨⟨⟨heap₂, lexicon⟩, globals, tracer⟩, history, moments⟩ := w₂
    have leave : Run.leave e r.frame ⟨⟨heap₂, lexicon⟩, globals, tracer⟩ =
        .ok () ⟨⟨heap, lexicon⟩, globals, tracer.observe e⟩ := by
      unfold Run.leave
      exact Run.onStore_onHeap_ok (m := ⟨⟨heap₂, lexicon⟩, globals, tracer.observe e⟩) step
    have later : Watch.Later L.frame? assigns w₀
        ⟨⟨⟨heap, lexicon⟩, globals, tracer.observe e⟩, history, moments⟩ :=
      later_of_call fresh before inside after meter rfl rfl rfl
    have tracked := sound'.tracked
    exact ⟨_, Watched.onMachine_ok leave, leave, later, ⟨rfl, rfl, ⟨⟨⟨tracked.sound.store,
      tracked.sound.globals⟩, tracked.words, tracked.tracks⟩, sound'.moments⟩, later.live live⟩, values⟩
  unfold Run.guarded
  generalize x w₁ = p at body ⊢
  generalize y w₁.machine = q at body ⊢
  cases body with
  | ok inside states hv =>
    obtain ⟨rfl, rfl, sound, live'⟩ := states
    obtain ⟨w₃, left, right, later, states, values⟩ := afterwards inside sound live'
    simp only [bind_of_ok left, bind_of_ok right]
    exact .ok later states (values hv)
  | raised e inside states =>
    obtain ⟨rfl, rfl, sound, live'⟩ := states
    obtain ⟨w₃, left, right, later, states, -⟩ := afterwards inside sound live'
    simp only [bind_of_ok left, bind_of_ok right]
    exact .raised _ later states

theorem Watched.callFunction_eq {f : Code.Function} (h : l.function c.function = .ok f)
    (depth : Nat) (plain : Value → Args → Run Value) (call : Value → Args → Watched Value)
    (callee : Value) (maker : Lineage) (args : Args) :
    Watched.callFunction l depth plain call callee maker c args = (do
      let bindings ← onMachine (Run.onStore (Store.onHeap (f.signature.bind f.name c.defaults args)))
      let a ← onMachine (Run.onStore (Store.onHeap
        (Heap.allocate (.frame { vars := .ofList bindings, parent := c.frame }))))
      let r ← Watched.openCall c.function a maker (bindings.map Prod.fst) callee args
      onMachine (Run.observe (.enter f.name depth))
      let act : Activation := { library := l, depth, frame := some a, call := plain }
      Run.guarded f.name
        (do note act (r :: maker) none []; act.watched (r :: maker) call |>.execBody f.body)
        (onMachine (Run.leave (.leave f.name (depth - 1)) a))) := by
  have found : onMachine (Run.inspect fun _ => l.function c.function) = pure f := by
    funext m
    simp only [h]
    rfl
  rw [Watched.callFunction, found, pure_bind]
  rfl

/-- The body of a function asks only for what it may ask in a call of the function. -/
theorem Belongs.asked {f : Code.Function}
    (h : Belongs l word maker r.function) (hf : l.functions[r.function.index]? = some f) :
    ∀ need ∈ f.body.needs, Asked l word (r :: maker) need := by
  intro need hneed
  obtain @⟨_, _, g, found, -, -, -, -, needs, made⟩ := h.defined
  obtain rfl : g = f := Option.some.inj (found.symm.trans hf)
  refine ⟨needs need hneed, fun id hid => ?_⟩
  have hmade : id ∈ g.body.made := List.mem_filterMap.2 ⟨need, hneed, hid⟩
  refine ⟨made id hmade, fun q hq => ?_⟩
  cases hq
  exact ⟨g, hf, hmade⟩

/-- A machine on which a call has been opened. -/
def Watch.opened (w : Watch) (heap : Heap) (r : CallRecord) (maker : Lineage) (params : List String)
    (callee : Value) (args : Args) (e : Trace.Event) : Watch :=
  ⟨⟨{ w.machine.store with heap }, w.machine.globals, w.machine.tracer.observe e⟩,
    w.history.opened r maker params callee args (w.machine.withHeap heap), w.moments⟩

/-- A call is opened in a new frame. -/
theorem watch_opened {bindings : List (String × Value)}
    {parent : Option Address} {heap : Heap} {callee : Value} {args : Args} (own : Option Address)
    (e : Trace.Event) (sound : w.Sound l word)
    (p : w.machine.store.heap.Placed (.frame { vars := .ofList bindings, parent }) r.frame heap)
    (hb : (w.view l).bindings bindings bindings) (captured : parent.Rel (w.view l).captured parent)
    (hparent : parent = maker.frame?) (live : maker.Live w.history w.machine.store.heap)
    (belongs : Belongs l word maker r.function)
    (opened : Opened l w.history.journal callee args r (w.machine.withHeap heap)) :
    let w' := w.opened heap r maker (bindings.map Prod.fst) callee args e
    Watch.Later own assigns w w' ∧ (watching l word False (r :: maker)).states w' w' w'.machine := by
  have tracked := sound.tracked
  have grows := Store.grows_of_placed (s := w.machine.store) p fun b => own = some b
  have later : Watch.Later own assigns w
      (w.opened heap r maker (bindings.map Prod.fst) callee args e) := by
    refine ⟨grows, fun {b c} hb => if_neg ?_, rfl, fun _ => rfl⟩
    rintro rfl
    exact Option.some_ne_none c (hb.symm.trans p.fresh)
  have store := tracked.sound.store.placed p (.inr ⟨_, rfl, .ofList hb, captured, rfl⟩)
  obtain ⟨tracks, live'⟩ := tracked.tracks.opened p hparent live belongs
    (OrderedMap.mem_keys_ofList bindings) opened
  have globals := (tracked.sound.of_store store (grows.view_le l)).globals
  exact ⟨later, rfl, rfl, ⟨⟨⟨store, globals⟩, tracked.words, tracks⟩, sound.moments⟩, live'⟩

theorem Store.onHeap_eq_ok {α : Type} {x : HeapM α} {s s' : Store} {a : α}
    (h : Store.onHeap x s = .ok a s') : ∃ heap, x s.heap = .ok a heap := by
  obtain ⟨heap, lexicon⟩ := s
  simp only [Store.onHeap] at h
  cases hx : x heap with
  | ok b heap' =>
    simp only [hx] at h
    cases h
    exact ⟨heap', rfl⟩
  | error e heap' =>
    simp only [hx] at h
    cases h

/-- Calling a function value that was made in a call of lineage `maker`. -/
theorem watching_callFunction (hl : l.Linked) {depth : Nat} {plain : Value → Args → Run Value}
    {call : Value → Args → Watched Value}
    (hcall : ∀ {L w v v' args args'}, (w.view l).value v v' → (w.view l).args args args' →
      (watching l word False L).Runs w (fun w' => (w'.view l).value) (call v args) (plain v' args'))
    {callee : Address} {args args' : Args} (there : w.machine.store.heap.cell? callee = some (.closure c))
    (hc : (w.view l).cell (.closure c) (.closure c)) (frame : c.frame = maker.frame?)
    (maker_live : maker.Live w.history w.machine.store.heap)
    (belongs : Belongs l word maker c.function) (hargs : (w.view l).args args args') :
    (watching l word assigns L).Runs w (fun w' => (w'.view l).value)
      (Watched.callFunction l depth plain call (.ref callee) maker c args)
      (Run.callFunction l depth plain c args') := by
  have rules := Store.soundness_rules hl
  obtain @⟨_, _, f, hf, -, -, params, numbered, -, -⟩ := belongs.defined
  have found : l.function c.function = .ok f := by simp only [Library.function, hf]
  have hdefaults : (w.view l).values c.defaults c.defaults ∧
      c.defaults.length = f.signature.defaultsCount ∧ c.frame.Rel (w.view l).captured c.frame := by
    cases hc with
    | closure known defaults captured =>
      obtain ⟨-, g, hg, hcount⟩ := known
      obtain rfl : g = f := Option.some.inj (hg.symm.trans hf)
      exact ⟨defaults, hcount.symm, captured⟩
  obtain ⟨defaults, hcount, captured⟩ := hdefaults
  rw [Watched.callFunction_eq found, Run.callFunction_eq found]
  intro s t hst
  have names : ∀ x ∈ f.signature.names, (w.view l).word x := by
    obtain ⟨-, -, sound, -⟩ := hst
    exact fun x hx => sound.tracked.words x (params x hx)
  refine Simulation.Runs.bind (watching_onStore (rules.bind numbered names defaults hcount hargs).and_ok)
    (fun w₁ bindings bindings' hw₁ hb => ?_) hst
  obtain ⟨hb, s₀, s₁, hbound⟩ := hb
  obtain ⟨heap₁, bound⟩ := Store.onHeap_eq_ok hbound
  obtain rfl := (Store.view_diagonal l w₁.machine.store).bindings_eq hb
  have le := hw₁.store.view_le l
  -- The frame is made and the call opened in one go: in between, the history lags behind the heap.
  rintro s t ⟨rfl, rfl, sound, live⟩
  obtain ⟨use, refused⟩ | ⟨a, heap, placed, p⟩ := Run.place_cases sound.tracked.sound.store.tidy
    (.frame { vars := .ofList bindings, parent := c.frame })
  · rw [bind_of_error (Watched.onMachine_error refused), bind_of_error refused]
    exact .raised _ (.refl _ _ _) ⟨rfl, rfl, sound, live⟩
  · rw [bind_of_ok (Watched.onMachine_ok placed), bind_of_ok placed]
    have maker_live₁ := hw₁.live maker_live
    let r : CallRecord := ⟨c.function, a, s.history.calls⟩
    have opened : Opened l s.history.journal (.ref callee) args r (s.machine.withHeap heap) := by
      obtain ⟨c', there', evolves⟩ := hw₁.store.kept there
      cases evolves
      exact ⟨callee, _, f, s₀.heap, bindings, heap₁, _, rfl, sound.tracked.tracks.birth there', rfl, hf,
        bound, p.cell?_self, rfl⟩
    obtain ⟨later, states⟩ := watch_opened (r := r) L.frame? (.enter f.name depth) sound p hb
      (Matching.rel_imp le.captured captured) frame maker_live₁ belongs opened
    let act : Activation := { library := l, depth, frame := some a, call := plain }
    have engine : EngineMatch (watching l word False (r :: maker)) (Watch.view l)
        (Asked l word (r :: maker)) (act.watched (r :: maker) call) act.engine :=
      engineMatch_watched hl (fun _ => id) (fun _ _ => List.cons_ne_nil r maker) rfl rfl hcall
    have body {w : Watch} : (watching l word False (r :: maker)).Runs w (fun w' => (w'.view l).value)
        (do note act (r :: maker) none []; (act.watched (r :: maker) call).execBody f.body)
        (act.engine.execBody f.body) :=
      watching_note rfl rfl asked_none .nil fun _ => engine.execBody f.body (belongs.asked hf)
    exact watching_guarded (r := r) f.name (.leave f.name (depth - 1)) live p.fresh later
      (body states)

/-- Only function values on the heap are called as functions. -/
theorem Value.callee_eq_function {h : Heap} {v : Value}
    (hc : v.callee h = .ok (.function c)) : ∃ a, v = .ref a ∧ h.cell? a = some (.closure c) := by
  cases v with
  | ref a =>
    refine ⟨a, rfl, ?_⟩
    cases hcell : h.cell? a with
    | none =>
      have hread : h.read a = .error (.broken .heap a.index) := by simp only [Heap.read, hcell]
      simp only [Value.callee, hread] at hc
      cases hc
    | some d =>
      simp only [Value.callee, Heap.read_of_cell? hcell] at hc
      cases d <;> cases hc
      rfl
  | _ => cases hc

theorem Watched.onMachine_guarded (name : String) (x : Run Value) (c : Run Unit) :
    onMachine (Run.guarded name x c) = Run.guarded name (onMachine x) (onMachine c) := by
  funext w
  simp only [onMachine, Run.guarded]
  cases x w.machine with
  | ok v machine =>
    cases hc : c machine with
    | ok u machine' =>
      simp only [onMachine, Bind.bind, EStateM.bind, hc]
      rfl
    | error e machine' => simp only [onMachine, Bind.bind, EStateM.bind, hc]
  | error e machine =>
    cases hc : c machine with
    | ok u machine' =>
      simp only [onMachine, Bind.bind, EStateM.bind, hc]
      rfl
    | error e machine' => simp only [onMachine, Bind.bind, EStateM.bind, hc]

/-- Calling a host function. -/
theorem watching_callNative (hl : l.Linked) (depth : Nat) {id : NativeId}
    {receiver receiver' : Option Value} {args args' : Args} (known : (w.view l).native id)
    (hr : receiver.Rel (w.view l).value receiver') (hargs : (w.view l).args args args') :
    (watching l word assigns L).Runs w (fun w' => (w'.view l).value)
      (onMachine (Run.callNative l depth id receiver args))
      (Run.callNative l depth id receiver' args') := by
  have rules := Store.soundness_rules hl
  obtain ⟨e, he, -⟩ := Alike.native_ok (rules.serves w.machine.store) known
  rw [Run.callNative_eq he, Run.callNative_eq he, Watched.onMachine_bind]
  refine (watching_observe _).bind fun w₁ _ _ hw₁ _ => ?_
  have le := hw₁.store.view_le l
  have hcall : (w₁.view l).nativeCall ⟨e.name, receiver, args⟩ ⟨e.name, receiver', args'⟩ :=
    ⟨rfl, Matching.rel_imp (Matching.value.mono le) hr, hargs.mono le⟩
  have body : (watching l word assigns L).Runs w₁ (fun w' => (w'.view l).value)
      (onMachine (Run.onStore (e.native.run l ⟨e.name, receiver, args⟩)))
      (Run.onStore (e.native.run l ⟨e.name, receiver', args'⟩)) :=
    watching_onStore (rules.runNative e.native hcall)
  rw [Watched.onMachine_guarded]
  exact .guarded e.name (fun h hv => hv.mono (h.store.view_le l)) body
    fun {_} => watching_observe _

/-- A watched call does what the call does. -/
theorem watching_callWithin (hl : l.Linked) (limit budget : Nat) {assigns : Prop} {L : Lineage} {w : Watch}
    {v v' : Value} {args args' : Args} (hv : (w.view l).value v v') (hargs : (w.view l).args args args') :
    (watching l word assigns L).Runs w (fun w' => (w'.view l).value)
      (Watched.callWithin l limit budget v args) (Run.callWithin l limit budget v' args') := by
  have rules := Store.soundness_rules hl
  induction budget generalizing assigns L w v v' args args' with
  | zero =>
    rw [Watched.callWithin, Run.callWithin_zero, Run.callWithin_zero, Watched.onMachine_bind]
    exact (watching_onStore (rules.inspect (R := fun _ _ _ => True)
      fun _ _ _ A => (A.callee hv).imp fun _ _ _ => trivial)).bind fun _ _ _ _ _ => .raise _
  | succ budget ih =>
    rw [Watched.callWithin, Run.callWithin]
    refine (watching_onStore (rules.inspect (R := fun s p q => (s.view l).callee p q ∧
      v.callee s.heap = .ok p) fun s t hst A => ?_)).bind fun w₁ p q hw₁ h => ?_
    · obtain ⟨rfl, -, -⟩ := hst
      exact (A.callee hv).and_ok
    · have le := hw₁.store.view_le l
      obtain ⟨callee, hp⟩ := h
      cases callee with
      | native known receiver =>
        exact watching_callNative hl _ known receiver (hargs.mono le)
      | @function c d hcd =>
        obtain ⟨a, rfl, hc⟩ := Value.callee_eq_function hp
        cases (Store.view_diagonal l w₁.machine.store).cell_eq hcd
        intro s t hst
        obtain rfl : s = w₁ := hst.1
        obtain ⟨frame, live, belongs⟩ := hst.2.2.1.tracked.tracks.closure hc
        exact watching_callFunction hl ih hc hcd frame live belongs (hargs.mono le) hst

end Scriptlet
