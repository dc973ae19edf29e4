import Scriptlet.Machine.Call
import Scriptlet.Proofs.Data.Lists
import Scriptlet.Proofs.Heap.Slots
import Scriptlet.Proofs.Simulation

/-!
# Single steps

What the steps of the machine come to that make an object, change a frame or open a call, and how what is done
after a call is compared.
-/

namespace Scriptlet

open Call (Args)
open Code (Name)
open Heap (Cell Frame)

variable {α : Type} {m : Machine}

/-- A machine with another heap. -/
def Machine.withHeap (m : Machine) (heap : Heap) : Machine :=
  { m with store := { m.store with heap } }

section bind

variable {ε σ β : Type} {x : EStateM ε σ α} {f : α → EStateM ε σ β} {s s' : σ}

theorem bind_of_ok {a : α} (h : x s = .ok a s') : (x >>= f) s = f a s' := by
  show EStateM.bind x f s = _
  rw [EStateM.bind, h]

theorem bind_of_error {e : ε} (h : x s = .error e s') : (x >>= f) s = .error e s' := by
  show EStateM.bind x f s = _
  rw [EStateM.bind, h]

theorem bind_eq_ok {b : β} : (x >>= f) s = .ok b s' ↔ ∃ a s₁, x s = .ok a s₁ ∧ f a s₁ = .ok b s' := by
  show EStateM.bind x f s = _ ↔ _
  rw [EStateM.bind]
  cases x s <;> simp

theorem bind_eq_error {e : ε} :
    (x >>= f) s = .error e s' ↔ x s = .error e s' ∨ ∃ a s₁, x s = .ok a s₁ ∧ f a s₁ = .error e s' := by
  show EStateM.bind x f s = _ ↔ _
  rw [EStateM.bind]
  cases x s <;> simp

end bind

namespace Heap

variable {h : Heap} {a : Address} {f : Frame}

theorem inspect_eq_ok {α : Type} {x : Heap → Attempt α} {h' : Heap} {r : α} :
    inspect x h = .ok r h' ↔ x h = .ok r ∧ h' = h := by
  unfold inspect
  cases x h <;> simp [eq_comm]

theorem inspect_read (hf : h.cell? a = some (.frame f)) : inspect (·.read a) h = .ok (.frame f) h := by
  simp only [inspect, read_of_cell? hf]

theorem assignVariable_frame (hf : h.cell? a = some (.frame f)) (x : String) (v : Value) :
    assignVariable (some a) x v h = .ok true (h.update a (Cell.assign x v)) := by
  rw [assignVariable, bind_of_ok (inspect_read hf)]
  rfl

theorem captureFrame_frame (hf : h.cell? a = some (.frame f)) :
    captureFrame (some a) h = .ok () (h.update a Cell.capture) := by
  rw [captureFrame, bind_of_ok (inspect_read hf)]
  rfl

end Heap

theorem Store.inspect_eq_ok {f : Heap → Attempt α} {r : α} {s s' : Store} :
    Store.inspect f s = .ok r s' ↔ f s.heap = .ok r ∧ s' = s := by
  obtain ⟨heap, lexicon⟩ := s
  simp only [Store.inspect, Store.onHeap, Heap.inspect]
  cases f heap <;> simp [eq_comm]

theorem Run.inspect_eq_ok {f : Heap → Attempt α} {r : α} {m' : Machine} :
    Run.inspect f m = .ok r m' ↔ f m.store.heap = .ok r ∧ m' = m := by
  obtain ⟨⟨heap, lexicon⟩, globals, tracer⟩ := m
  simp only [Run.inspect, Store.inspect, Run.onStore, Store.onHeap, Heap.inspect]
  cases f heap <;> simp [eq_comm]

theorem Store.onHeap_bind {β : Type} (x : HeapM α) (f : α → HeapM β) :
    onHeap (x >>= f) = onHeap x >>= fun a => onHeap (f a) := by
  funext ⟨h, lexicon⟩
  show onHeap (EStateM.bind x f) _ = EStateM.bind (onHeap x) _ _
  simp only [onHeap, EStateM.bind]
  cases x h <;> rfl

theorem Run.onStore_bind {β : Type} (x : StoreM α) (f : α → StoreM β) :
    onStore (x >>= f) = onStore x >>= fun a => onStore (f a) := by
  funext ⟨store, globals, tracer⟩
  show onStore (EStateM.bind x f) _ = EStateM.bind (onStore x) _ _
  simp only [onStore, EStateM.bind]
  cases x store <;> rfl

theorem Run.onStore_onHeap_ok {x : HeapM α} {heap : Heap} {a : α}
    (h : x m.store.heap = .ok a heap) : Run.onStore (Store.onHeap x) m = .ok a (m.withHeap heap) := by
  obtain ⟨⟨h₀, lexicon⟩, globals, tracer⟩ := m
  simp only [Run.onStore, Store.onHeap, h]
  rfl

theorem Run.onStore_onHeap_error {x : HeapM α} {heap : Heap} {e : Failure}
    (h : x m.store.heap = .error e heap) : Run.onStore (Store.onHeap x) m = .error e (m.withHeap heap) := by
  obtain ⟨⟨h₀, lexicon⟩, globals, tracer⟩ := m
  simp only [Run.onStore, Store.onHeap, h]
  rfl

/-- A new object is refused by the meter, or it is put into a slot that held nothing. -/
theorem Run.place_cases (ht : m.store.heap.Tidy) (c : Cell) :
    (∃ use, Run.onStore (Store.onHeap (Heap.allocate c)) m =
      .error (.ofCause (.exhausted use)) m) ∨
    ∃ a heap, Run.onStore (Store.onHeap (Heap.allocate c)) m = .ok a (m.withHeap heap) ∧
      m.store.heap.Placed c a heap := by
  obtain ⟨use, -, ha⟩ | ⟨meter, a, heap, -, ha, p, -⟩ := Heap.allocate_cases ht c
  · exact .inl ⟨use, Run.onStore_onHeap_error ha⟩
  · exact .inr ⟨a, heap, Run.onStore_onHeap_ok ha, p⟩

theorem Run.allocate_eq (c : Cell) :
    Run.allocate c = do return Value.ref (← Run.onStore (Store.onHeap (Heap.allocate c))) := by
  funext ⟨⟨heap, lexicon⟩, globals, tracer⟩
  simp only [Run.allocate, Store.allocate, Run.onStore, Bind.bind, EStateM.bind, Store.onHeap]
  cases Heap.allocate c heap <;> rfl

namespace Activation

variable {act : Activation} {x : Name} {m : Machine}

/-- A variable is read from its frame, if it has been assigned. -/
theorem loadFrom_frame {a : Address} {f : Frame} (hf : m.store.heap.cell? a = some (.frame f))
    (x : String) : loadFrom (some a) x m =
      match f.vars.find? x with
      | some v => .ok v m
      | none => .error (.ofCause (.unassignedLocal x)) m := by
  have found : Heap.inspect (fun h => h.variableIn (some a) x) m.store.heap =
      .ok (f.vars.find? x) m.store.heap := by
    simp only [Heap.inspect, Heap.variableIn, Heap.read_of_cell? hf]
    rfl
  rw [loadFrom, Run.inspect, Store.inspect, bind_of_ok (Run.onStore_onHeap_ok found)]
  cases f.vars.find? x <;> rfl

theorem load_own (hx : x.scope = .own) : act.load x m = loadFrom act.frame x.text m := by
  simp only [load, hx]

theorem load_outer {levels : Nat} {frame : Option Address} (hx : x.scope = .outer levels)
    (h : m.store.heap.enclosing levels act.frame = .ok frame) :
    act.load x m =
      loadFrom frame x.text { m with tracer := m.tracer.observe (.outerLoad x.text levels) } := by
  have found : Heap.inspect (fun h => h.enclosing levels act.frame) m.store.heap =
      .ok frame m.store.heap := by
    simp only [Heap.inspect, h]
  have observed : Run.observe (.outerLoad x.text levels) m =
      .ok () { m with tracer := m.tracer.observe (.outerLoad x.text levels) } := rfl
  simp only [load, hx]
  rw [bind_of_ok observed]
  exact bind_of_ok (Run.onStore_onHeap_ok
    (m := { m with tracer := m.tracer.observe (.outerLoad x.text levels) }) found)

theorem store_of_frameOf {frame : Option Address} (v : Value) (h : act.frameOf m.store.heap x = .ok frame) :
    act.store x v m =
      (do if ← Run.onStore (Store.onHeap (Heap.assignVariable frame x.text v)) then return
          Run.storeGlobal x.text v : Run Unit) m := by
  have found : Heap.inspect (fun h => act.frameOf h x) m.store.heap = .ok frame m.store.heap := by
    simp only [Heap.inspect, h]
  rw [store, Run.inspect, Store.inspect, bind_of_ok (Run.onStore_onHeap_ok found)]
  rfl

/-- A variable of the running call is assigned in its frame. -/
theorem store_own {a : Address} {f : Frame} (v : Value) (hx : x.scope = .own)
    (ha : act.frame = some a) (hf : m.store.heap.cell? a = some (.frame f)) :
    act.store x v m = .ok () (m.withHeap (m.store.heap.update a (Cell.assign x.text v))) := by
  have hframe : act.frameOf m.store.heap x = .ok (some a) := by simp only [frameOf, hx, ha]
  rw [store_of_frameOf v hframe,
    bind_of_ok (Run.onStore_onHeap_ok (Heap.assignVariable_frame hf x.text v))]
  rfl

/-- A global is assigned among the globals. -/
theorem store_global (v : Value) (hx : x.scope = .global) : act.store x v m = Run.storeGlobal x.text v m := by
  have hframe : act.frameOf m.store.heap x = .ok none := by simp only [frameOf, hx]
  have none_assigned : Heap.assignVariable none x.text v m.store.heap = .ok false m.store.heap := rfl
  rw [store_of_frameOf v hframe, bind_of_ok (Run.onStore_onHeap_ok none_assigned)]
  rfl

/-- Making a function of the table: the frame is captured if the function is nested, and the function value is
put on the heap. -/
theorem makeFunction_eq {id : FunctionId} {f : Code.Function} (h : act.library.function id = .ok f)
    (defaults : List Value) :
    act.makeFunction id defaults = (do
      Run.observe (.makeFunction f.name f.signature.defaultsCount f.nested)
      if f.nested then Run.onStore (Store.onHeap (Heap.captureFrame act.frame)) else pure ()
      Run.allocate (.closure
        { function := id, defaults, frame := if f.nested then act.frame else none })) := by
  have found : (Run.inspect fun _ => act.library.function id) = pure f := by
    funext m
    simp only [h]
    rfl
  rw [makeFunction, found, pure_bind]
  cases f.nested <;> rfl

end Activation

/-! ## Calls -/

namespace Run

variable {l : Library}

/-- What is done when a call is over, whether or not it failed. -/
def leave (e : Trace.Event) (a : Address) : Run Unit := do
  observe e
  onStore (Store.onHeap (Heap.releaseFrame a))

/-- Calling a function of the table. -/
theorem callFunction_eq {f : Code.Function} {c : Heap.Closure} (h : l.function c.function = .ok f)
    (depth : Nat) (call : Value → Args → Run Value) (args : Args) :
    callFunction l depth call c args = (do
      let bindings ← onStore (Store.onHeap (f.signature.bind f.name c.defaults args))
      let a ← onStore (Store.onHeap
        (Heap.allocate (.frame { vars := .ofList bindings, parent := c.frame })))
      observe (.enter f.name depth)
      guarded f.name
        (Activation.engine { library := l, depth, frame := some a, call } |>.execBody f.body)
        (leave (.leave f.name (depth - 1)) a)) := by
  have found : (inspect fun _ => l.function c.function) = pure f := by
    funext m
    simp only [h]
    rfl
  rw [callFunction, found, pure_bind]
  rfl

/-- Calling a host function of the table. -/
theorem callNative_eq {e : NativeEntry} {id : NativeId} (h : l.native id = .ok e) (depth : Nat)
    (receiver : Option Value) (args : Args) :
    callNative l depth id receiver args = (do
      observe (.enter e.name depth)
      guarded e.name (onStore (e.native.run l { name := e.name, receiver, args }))
        (observe (.leave e.name (depth - 1)))) := by
  have found : (inspect fun _ => l.native id) = pure e := by
    funext m
    simp only [h]
    rfl
  rw [callNative, found, pure_bind]
  rfl

theorem callWithin_zero (l : Library) (limit : Nat) (v : Value) (args : Args) :
    callWithin l limit 0 v args = (do
      let _ ← inspect v.callee
      raise (.exhausted (.depth limit (limit + 1)))) := by
  funext m
  show EStateM.bind (EStateM.map _ (inspect v.callee)) _ m =
    EStateM.bind (inspect v.callee) _ m
  simp only [EStateM.bind, EStateM.map]
  cases inspect v.callee m <;> rfl

end Run

/-- Two calls end alike if their bodies do and cleaning up after them does. -/
theorem Simulation.Runs.guarded {σ τ W : Type} {C : Simulation σ τ W} {w : W}
    {R : W → Value → Value → Prop} {x : EStateM Failure σ Value} {y : EStateM Failure τ Value}
    {c : EStateM Failure σ Unit} {d : EStateM Failure τ Unit} (name : String)
    (hR : ∀ {u v a b}, C.le u v → R u a b → R v a b) (body : C.Runs w R x y)
    (clean : ∀ {w'}, C.Runs w' (fun _ _ _ => True) c d) : C.Runs w R (Run.guarded name x c) (Run.guarded name y d) := by
  intro s t hst
  have ends := body hst
  unfold Run.guarded
  generalize x s = p at ends ⊢
  generalize y t = q at ends ⊢
  cases ends with
  | ok le states h =>
    exact (clean.bind (fun w' _ _ hw' _ => .pure (hR hw' h)) states).from_le le
  | raised e le states =>
    refine Simulation.Ends.from_le le ?_
    exact clean.bind (fun _ _ _ _ _ => fun _ _ hst => .raised (e.leaving name) (C.refl _) hst) states

end Scriptlet
