import Scriptlet.Machine.Basic
import Scriptlet.Proofs.Heap.Reach
import Scriptlet.Proofs.Matching

/-!
# Reachability in matching heaps

Matching objects refer to matching objects, so what is reachable on one side stands for something that is
reachable on the other. For a heap that matches itself this says that all that is reachable is there.
-/

namespace Scriptlet

open Heap (Cell Frame Reaches)

namespace Matching

variable {M : Matching}

/-- What an object refers to: objects, and frames in whose calls a function was made. -/
def referent (M : Matching) (a b : Address) : Prop := M.object a b ∨ M.captured a b

theorem values.addresses {vs ws : List Value} (h : M.values vs ws) :
    List.Forall₂ M.referent (vs.filterMap Value.address?) (ws.filterMap Value.address?) := by
  refine List.rel_filterMap (fun v w hv => ?_) h
  cases hv with
  | ref hab => exact .some (.inl hab)
  | _ => exact .none

theorem bindings_values {es fs : OrderedMap String Value} (h : es.Matches M.binding fs) :
    M.values es.values fs.values :=
  List.Forall₂.imp (fun _ _ hv => hv.elim fun _ hv => hv.2) h.values

theorem entries_parts {es fs : OrderedMap Key (Value × Value)} (h : es.Matches M.entry fs) :
    M.values (es.values.flatMap fun e => [e.1, e.2]) (fs.values.flatMap fun e => [e.1, e.2]) := by
  have hv := h.values
  generalize es.values = vs at hv ⊢
  generalize fs.values = ws at hv ⊢
  induction hv with
  | nil => exact .nil
  | cons he _ ih =>
    obtain ⟨_, he⟩ := he
    exact .cons he.1 (.cons he.2 ih)

theorem referents_toList {p q : Option Address} (h : p.Rel M.captured q) :
    List.Forall₂ M.referent p.toList q.toList := by
  cases h with
  | some hab => exact .cons (.inr hab) .nil
  | none => exact .nil

theorem cell.children {c d : Cell} (h : M.cell c d) : List.Forall₂ M.referent c.children d.children := by
  cases h with
  | text s => exact .nil
  | list frozen hv => exact hv.addresses
  | tuple hv => exact hv.addresses
  | dict frozen he => exact (entries_parts he).addresses
  | struct he => exact (bindings_values he).addresses
  | closure _ defaults frame => exact List.rel_append (referents_toList frame) defaults.addresses
  | method receiver _ => exact values.addresses (.cons receiver .nil)

theorem frames.children {f g : Frame} (h : M.frames f g) :
    List.Forall₂ M.referent (Cell.frame f).children (Cell.frame g).children :=
  List.rel_append (referents_toList h.parent) (bindings_values h.vars).addresses

end Matching

namespace Alike

variable {M : Matching} {h h' : Heap}

theorem children (A : Alike M h h') {a b : Address} (hab : M.referent a b) :
    List.Forall₂ M.referent (h.children a) (h'.children b) := by
  obtain hab | hab := hab
  · obtain ⟨c, d, hc, hd, hcd⟩ := A.object hab
    simp only [Heap.children, hc, hd]
    exact hcd.children
  · obtain ⟨f, g, hf, hg, hfg⟩ := A.frame (A.captured hab).1
    simp only [Heap.children, hf, hg]
    exact hfg.children

/-- What is reachable on one side stands for something that is reachable on the other. -/
theorem reaches (A : Alike M h h') {roots roots' : List Address}
    (hr : List.Forall₂ M.referent roots roots') {a : Address} (ha : Reaches h roots a) :
    ∃ b, Reaches h' roots' b ∧ M.referent a b := by
  have mem {as bs : List Address} (hab : List.Forall₂ M.referent as bs) {a : Address}
      (ha : a ∈ as) : ∃ b ∈ bs, M.referent a b := by
    induction hab with
    | nil => cases ha
    | cons h _ ih =>
      obtain rfl | ha := List.mem_cons.1 ha
      · exact ⟨_, List.mem_cons_self, h⟩
      · obtain ⟨b, hb, hab⟩ := ih ha
        exact ⟨b, List.mem_cons_of_mem _ hb, hab⟩
  induction ha with
  | root ha =>
    obtain ⟨b, hb, hab⟩ := mem hr ha
    exact ⟨b, .root hb, hab⟩
  | child _ hc ih =>
    obtain ⟨b, hb, hab⟩ := ih
    obtain ⟨d, hd, hcd⟩ := mem (A.children hab) hc
    exact ⟨d, .child hb hd, hcd⟩

end Alike

theorem Globals.referents_roots {M : Matching} {g g' : Globals} (h : g.vars.Matches M.binding g'.vars) :
    List.Forall₂ M.referent g.roots g'.roots :=
  (Matching.bindings_values h).addresses

end Scriptlet
