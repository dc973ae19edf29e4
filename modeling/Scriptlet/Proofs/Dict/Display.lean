import Scriptlet.Machine.Expr
import Scriptlet.Object.Build

/-!
# Displays of dictionaries

A dictionary is made entry by entry, whether a program displays it or a host passes it in: the index and the value of
an entry are computed, and then the key of the index is taken.
-/

namespace Scriptlet

variable {σ : Type}

/-- Computes indices and values from left to right and makes a dictionary of them, on top of some entries. -/
def displayDict (key : Value → EStateM Failure σ Key)
    (make : OrderedMap Key (Value × Value) → EStateM Failure σ Value) (entries : OrderedMap Key (Value × Value)) :
    List (EStateM Failure σ Value × EStateM Failure σ Value) → EStateM Failure σ Value
  | [] => make entries
  | (index, value) :: more => do
    let i ← index
    let v ← value
    let k ← key i
    displayDict key make (entries.insert k (i, v)) more

theorem Engine.eval_dict (k : Engine σ) (es : List (Code.Expr × Code.Expr)) :
    k.eval (.dict es) = displayDict k.key k.dict .empty (es.map fun e => (k.eval e.1, k.eval e.2)) := by
  have fold (entries : OrderedMap Key (Value × Value)) :
      k.evalEntries entries es >>= k.dict =
        displayDict k.key k.dict entries (es.map fun e => (k.eval e.1, k.eval e.2)) := by
    induction es generalizing entries with
    | nil => rw [evalEntries, pure_bind, List.map_nil, displayDict]
    | cons e es ih =>
      obtain ⟨index, value⟩ := e
      simp only [evalEntries, bind_assoc, ih, List.map_cons, displayDict]
  rw [eval, fold]

theorem Object.buildWithin_dict (n : Nat) (pairs : List (Object × Object)) :
    buildWithin (n + 1) (.dict pairs) =
      displayDict (fun v => Store.inspect v.key) (fun entries => Store.allocate (.dict entries false)) .empty
        (pairs.map fun p => (buildWithin n p.1, buildWithin n p.2)) := by
  have fold (entries : OrderedMap Key (Value × Value)) :
      (pairs.foldlM (fun (entries : OrderedMap Key (Value × Value)) p => do
        let k ← buildWithin n p.1
        let v ← buildWithin n p.2
        let key ← Store.inspect k.key
        return entries.insert key (k, v)) entries >>= fun entries => Store.allocate (.dict entries false)) =
      displayDict (fun v => Store.inspect v.key) (fun entries => Store.allocate (.dict entries false)) entries
        (pairs.map fun p => (buildWithin n p.1, buildWithin n p.2)) := by
    induction pairs generalizing entries with
    | nil => rw [List.foldlM_nil, pure_bind, List.map_nil, displayDict]
    | cons p pairs ih =>
      obtain ⟨index, value⟩ := p
      simp only [List.foldlM_cons, bind_assoc, pure_bind, ih, List.map_cons, displayDict]
  exact fold .empty

end Scriptlet
