import Scriptlet.Native.Standard
import Scriptlet.Proofs.Stepping.Requests

/-!
# Failures of host functions

A host function may fail with any exception that the host has at hand, also with one that has a traceback of its own,
and it may go on after an operation was refused. Those that do neither, as the standard ones, are described by their
programs.
-/

namespace Scriptlet

open Fault (Cause)

namespace HostCode

/-- If an object is refused with such a cause, the program fails at once with such a cause, too. -/
def Relays (P : Cause → Prop) (next : Except Cause Handle → HostCode) : Prop :=
  ∀ cause, P cause → ∃ e : Exception, P e.cause ∧ next (.error cause) = .fail e

/-- The exceptions with which the program fails are such as `own` says, and it goes on after no refusal of an object
with a cause such as `P` says. -/
def HandsOn (own : Exception → Prop) (P : Cause → Prop) : HostCode → Prop
  | .giveBack _ => True
  | .fail e => own e
  | .requireArity _ next => ∀ r, (next r).HandsOn own P
  | .typeOf _ next => ∀ r, (next r).HandsOn own P
  | .textOf _ next => ∀ r, (next r).HandsOn own P
  | .intOf _ next => ∀ r, (next r).HandsOn own P
  | .objectOf _ next => ∀ r, (next r).HandsOn own P
  | .lengthOf _ next => ∀ r, (next r).HandsOn own P
  | .newValue _ next => (∀ r, (next r).HandsOn own P) ∧ Relays P next
  | .newText _ next => (∀ r, (next r).HandsOn own P) ∧ Relays P next
  | .newStruct next => (∀ r, (next r).HandsOn own P) ∧ Relays P next
  | .push _ _ next => ∀ r, (next r).HandsOn own P
  | .clear _ next => ∀ r, (next r).HandsOn own P

/-- What is shown to a program as a result is no exception any more. -/
theorem failsAnew_attempt {σ α : Type} (x : EStateM Failure σ α) : FailsAnew (attempt x) := by
  intro s
  unfold attempt
  rcases x s with _ | ⟨_ | _, _⟩
  · exact .ok
  · exact .ok
  · exact .error trivial

theorem HandsOn.failsAnew {P : Cause → Prop} (l : Library) (c : NativeCall) {code : HostCode}
    (h : code.HandsOn (·.traceback = #[]) P) (obtained : List Value) : FailsAnew (code.run l c obtained) := by
  have looks {α : Type} {f : Heap → Attempt α} (hf : Looks f) : FailsAnew (Store.inspect f) :=
    .of_composed (Store.composed_inspect hf) Store.Primitive.failsAnew
  induction code generalizing obtained with
  | giveBack v => exact fun _ => .ok
  | fail e => exact fun _ => .error h
  | requireArity count next ih => exact (failsAnew_attempt _).bind fun r => ih r (h r) _
  | typeOf v next ih => exact (looks (fun _ _ => by rfl)).bind fun r => ih r (h r) _
  | textOf v next ih => exact (looks (fun _ _ => by rfl)).bind fun r => ih r (h r) _
  | intOf v next ih => exact ih _ (h _) obtained
  | objectOf v next ih => exact (looks (Value.looks_unfold l _)).bind fun r => ih r (h r) _
  | lengthOf v next ih => exact (failsAnew_attempt _).bind fun r => ih r (h r) _
  | newValue o next ih => exact (failsAnew_attempt _).bind fun r => ih _ (h.1 _) _
  | newText s next ih => exact (failsAnew_attempt _).bind fun r => ih _ (h.1 _) _
  | newStruct next ih => exact (failsAnew_attempt _).bind fun r => ih _ (h.1 _) _
  | push list item next ih => exact (failsAnew_attempt _).bind fun r => ih r (h r) _
  | clear list next ih => exact (failsAnew_attempt _).bind fun r => ih r (h r) _

end HostCode

/-- The host function goes on after no refusal of an object with such a cause, whatever it is called with. -/
def HostFunction.HandsOn (P : Cause → Prop) (f : HostFunction) : Prop :=
  ∀ shape, (f.code shape).HandsOn (fun _ => True) P

namespace Native

open HostCode (HandsOn Relays orFail)

section standard

variable {own : Exception → Prop} {P : Cause → Prop} (untraced : ∀ cause, own { cause })

include untraced

omit untraced

end standard

end Native

end Scriptlet
