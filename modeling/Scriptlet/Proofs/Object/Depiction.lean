import Mathlib.Data.List.Forall2
import Scriptlet.Proofs.Dict.Keyed
import Scriptlet.Proofs.Heap.Leads
import Scriptlet.Proofs.Machine.Steps
import Scriptlet.Proofs.Object.Parts
import Scriptlet.Proofs.Object.Paths

/-!
# Objects that depict values

The object of a container is put together from the objects of its parts, in their order. This says what one step of a
conversion does, and what follows for the parts of an object: each of them is the object of a part of the container,
found one step further along the path.
-/

namespace Scriptlet

open Heap (Cell)

/-! ## One step of a conversion -/

namespace Heap.Cell

/-- Whether an object is a string or a container. -/
def isData : Cell → Bool
  | .text _ | .list .. | .tuple _ | .dict .. | .struct _ => true
  | _ => false

theorem isData_of_isContainer {c : Cell} (container : c.isContainer) : c.isData := by
  cases c with
  | closure c => cases container
  | method m => cases container
  | frame f => cases container
  | _ => rfl

/-- The host object for the content of a heap object, where `f` is for the values in it. -/
def convert (l : Library) (h : Heap) (f : Value → Attempt Object) : Cell → Attempt Object
  | .text s => return .string s
  | .list items _ => return .list (← items.toList.mapM f)
  | .tuple items => return .tuple (← items.toList.mapM f)
  | .dict entries _ => return .dict (← entries.values.mapM fun e => return (← f e.1, ← f e.2))
  | .struct fields => return .struct (← fields.entries.mapM fun e => return (e.1, ← f e.2))
  | .closure c => do
    let f ← l.function c.function
    return .described s!"<function {f.name}>"
  | .method m => do
    let e ← l.native m.native
    let type ← m.receiver.type h
    return .described s!"<bound method {e.name} of {type.name}>"
  | .frame _ => return .described "<frame>"

/-- An object depicts the content of a heap object, where `R` relates the values in it to the objects that depict
them. -/
inductive DepictedBy (R : Value → Object → Prop) : Cell → Object → Prop where
  | text (s : String) : DepictedBy R (.text s) (.string s)
  | list {items : Array Value} {frozen : Bool} {os : List Object} (parts : List.Forall₂ R items.toList os) :
      DepictedBy R (.list items frozen) (.list os)
  | tuple {items : Array Value} {os : List Object} (parts : List.Forall₂ R items.toList os) :
      DepictedBy R (.tuple items) (.tuple os)
  | dict {entries : OrderedMap Key (Value × Value)} {frozen : Bool} {ps : List (Object × Object)}
      (parts : List.Forall₂ (fun e p => R e.1 p.1 ∧ R e.2 p.2) entries.values ps) :
      DepictedBy R (.dict entries frozen) (.dict ps)
  | struct {fields : OrderedMap String Value} {gs : List (String × Object)}
      (parts : List.Forall₂ (fun f g => f.1 = g.1 ∧ R f.2 g.2) fields.entries gs) :
      DepictedBy R (.struct fields) (.struct gs)
  | described {c : Cell} (plain : c.isData = false) (text : String) : DepictedBy R c (.described text)

variable {l : Library} {h : Heap} {f g : Value → Attempt Object} {R S : Value → Object → Prop} {c : Cell} {o p : Object}
  {v : Value}

theorem convert_congr (same : ∀ v ∈ c.parts, f v = g v) : c.convert l h f = c.convert l h g := by
  cases c with
  | list items frozen => exact congrArg (fun r : Attempt _ => r >>= fun os => pure (Object.list os)) (Attempt.mapM_congr same)
  | tuple items => exact congrArg (fun r : Attempt _ => r >>= fun os => pure (Object.tuple os)) (Attempt.mapM_congr same)
  | dict entries frozen =>
    refine congrArg (fun r : Attempt _ => r >>= fun ps => pure (Object.dict ps)) (Attempt.mapM_congr fun e he => ?_)
    have parts (v : Value) (hv : v ∈ [e.1, e.2]) : f v = g v := same v (List.mem_flatMap.2 ⟨e, he, hv⟩)
    rw [parts e.1 (by simp), parts e.2 (by simp)]
  | struct fields =>
    refine congrArg (fun r : Attempt _ => r >>= fun gs => pure (Object.struct gs)) (Attempt.mapM_congr fun e he => ?_)
    rw [same e.2 (List.mem_map_of_mem he)]
  | _ => rfl

/-- Only the name of a method depends on the heap. -/
theorem convert_eq_of_isData {h' : Heap} (data : c.isData) : c.convert l h' f = c.convert l h f := by
  cases c with
  | method m => cases data
  | _ => rfl

theorem depictedBy_of_convert (ran : c.convert l h f = .ok o) : c.DepictedBy (fun v o => f v = .ok o) o := by
  cases c with
  | text s =>
    cases ran
    exact .text s
  | list items frozen =>
    obtain ⟨os, parts, made⟩ := Attempt.bind_eq_ok.1 ran
    cases made
    exact .list (Attempt.mapM_eq_ok.1 parts)
  | tuple items =>
    obtain ⟨os, parts, made⟩ := Attempt.bind_eq_ok.1 ran
    cases made
    exact .tuple (Attempt.mapM_eq_ok.1 parts)
  | dict entries frozen =>
    obtain ⟨ps, parts, made⟩ := Attempt.bind_eq_ok.1 ran
    cases made
    refine .dict ((Attempt.mapM_eq_ok.1 parts).imp fun e p made => ?_)
    obtain ⟨k, index, made⟩ := Attempt.bind_eq_ok.1 made
    obtain ⟨w, value, made⟩ := Attempt.bind_eq_ok.1 made
    cases made
    exact ⟨index, value⟩
  | struct fields =>
    obtain ⟨gs, parts, made⟩ := Attempt.bind_eq_ok.1 ran
    cases made
    refine .struct ((Attempt.mapM_eq_ok.1 parts).imp fun e p made => ?_)
    obtain ⟨w, value, made⟩ := Attempt.bind_eq_ok.1 made
    cases made
    exact ⟨rfl, value⟩
  | closure c =>
    obtain ⟨f, -, made⟩ := Attempt.bind_eq_ok.1 ran
    cases made
    exact .described rfl _
  | method m =>
    obtain ⟨e, -, made⟩ := Attempt.bind_eq_ok.1 ran
    obtain ⟨type, -, made⟩ := Attempt.bind_eq_ok.1 made
    cases made
    exact .described rfl _
  | frame f =>
    cases ran
    exact .described rfl _

namespace DepictedBy

/-- Each value in the container is depicted by a part of the object. -/
theorem of_mem (depicted : c.DepictedBy R o) (part : v ∈ c.parts) : ∃ p ∈ o.parts, R v p := by
  cases depicted with
  | text s => cases part
  | list parts => exact exists_of_mem_left parts part
  | tuple parts => exact exists_of_mem_left parts part
  | dict parts =>
    obtain ⟨e, he, hv⟩ := List.mem_flatMap.1 part
    obtain ⟨p, hp, index, value⟩ := exists_of_mem_left parts he
    have inner (q : Object) (hq : q ∈ [p.1, p.2]) : q ∈ (Object.dict _).parts := List.mem_flatMap.2 ⟨p, hp, hq⟩
    rcases List.mem_pair.1 hv with rfl | rfl
    · exact ⟨p.1, inner p.1 (by simp), index⟩
    · exact ⟨p.2, inner p.2 (by simp), value⟩
  | struct parts =>
    obtain ⟨e, he, rfl⟩ := List.mem_map.1 part
    obtain ⟨p, hp, -, value⟩ := exists_of_mem_left parts he
    exact ⟨p.2, List.mem_map_of_mem hp, value⟩
  | described plain text =>
    rw [isData_of_isContainer (isContainer_of_mem_parts part)] at plain
    cases plain

/-- Each part of the object depicts a value in the container. -/
theorem of_mem_parts (depicted : c.DepictedBy R o) (part : p ∈ o.parts) : ∃ v ∈ c.parts, R v p := by
  cases depicted with
  | text s => cases part
  | list parts => exact exists_of_mem_left parts.flip part
  | tuple parts => exact exists_of_mem_left parts.flip part
  | dict parts =>
    obtain ⟨q, hq, hp⟩ := List.mem_flatMap.1 part
    obtain ⟨e, he, index, value⟩ := exists_of_mem_left parts.flip hq
    have inner (v : Value) (hv : v ∈ [e.1, e.2]) : v ∈ (Cell.dict _ false).parts := List.mem_flatMap.2 ⟨e, he, hv⟩
    rcases List.mem_pair.1 hp with rfl | rfl
    · exact ⟨e.1, inner e.1 (by simp), index⟩
    · exact ⟨e.2, inner e.2 (by simp), value⟩
  | struct parts =>
    obtain ⟨q, hq, rfl⟩ := List.mem_map.1 part
    obtain ⟨e, he, -, value⟩ := exists_of_mem_left parts.flip hq
    exact ⟨e.2, List.mem_map_of_mem he, value⟩
  | described plain text => cases part

end DepictedBy

end Heap.Cell

/-! ## The step along a path -/

namespace Value

variable {l : Library} {h : Heap} {n : Nat} {path : List Address} {a : Address} {c : Cell} {v : Value} {o : Object}

theorem unfoldWithin_succ (new : a ∉ path) :
    (ref a).unfoldWithin l h (n + 1) path = h.read a >>= fun c => c.convert l h (unfoldWithin l h n (a :: path)) := by
  have off : path.contains a = false := Bool.eq_false_iff.2 fun on => new (List.contains_iff_mem.1 on)
  simp only [unfoldWithin, off]
  cases h.read a with
  | error e => rfl
  | ok c => cases c <;> rfl

/-- The object of a value off the heap is neither a container nor the mark of a cycle, and it is only described if the
value is a host function. -/
theorem unfoldWithin_of_not_ref (off : v.address? = Option.none) (ran : v.unfoldWithin l h n path = .ok o) :
    o.parts = [] ∧ (∀ text, o ≠ .cycle text) ∧ (o.outputOnly → ∃ id, v = .native id) := by
  cases v with
  | ref a => cases off
  | native id =>
    have ran : (l.native id >>= fun e => pure (Object.described s!"<built-in function {e.name}>")) = .ok o := by
      cases n <;> exact ran
    obtain ⟨e, -, made⟩ := Attempt.bind_eq_ok.1 ran
    cases made
    exact ⟨rfl, fun _ same => Object.noConfusion same, fun _ => ⟨id, rfl⟩⟩
  | _ =>
    have made := Except.ok.inj ((by cases n <;> rfl : unfoldWithin l h n path _ = .ok _).symm.trans ran)
    subst made
    exact ⟨rfl, fun _ same => Object.noConfusion same, fun out => Bool.noConfusion out⟩

/-- What becomes of a reference: the mark of a cycle if it is on the path, a mark if the path is too long, and else an
object that depicts its content, with one object more on the path. -/
theorem unfoldWithin_ref_cases (ran : (ref a).unfoldWithin l h n path = .ok o) :
    (a ∈ path ∧ ∃ c, h.cell? a = some c ∧ o = .cycle c.cycleMark) ∨
    (a ∉ path ∧ n = 0 ∧ o = .described "...") ∨
    (a ∉ path ∧ ∃ m c, n = m + 1 ∧ h.cell? a = some c ∧
      c.DepictedBy (fun v o => v.unfoldWithin l h m (a :: path) = .ok o) o) := by
  by_cases on : a ∈ path
  · have met : path.contains a = true := List.contains_iff_mem.2 on
    have ran : (h.read a >>= fun c => pure (Object.cycle c.cycleMark)) = .ok o := by
      cases n <;> simpa only [unfoldWithin, met, if_true] using ran
    obtain ⟨c, read, made⟩ := Attempt.bind_eq_ok.1 ran
    cases made
    exact .inl ⟨on, c, Heap.cell?_of_read read, rfl⟩
  · have off : path.contains a = false := Bool.eq_false_iff.2 fun met => on (List.contains_iff_mem.1 met)
    cases n with
    | zero =>
      simp only [unfoldWithin, off] at ran
      cases ran
      exact .inr (.inl ⟨on, rfl, rfl⟩)
    | succ n =>
      rw [unfoldWithin_succ on] at ran
      obtain ⟨c, read, ran⟩ := Attempt.bind_eq_ok.1 ran
      exact .inr (.inr ⟨on, n, c, rfl, Heap.cell?_of_read read, Cell.depictedBy_of_convert ran⟩)

end Value

end Scriptlet
