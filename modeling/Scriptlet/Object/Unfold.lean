import Std.Data.ExtTreeSet
import Scriptlet.Machine.Library
import Scriptlet.Object.Basic
import Scriptlet.Value.Inspect

/-!
# Values as objects

A value becomes a host object by unfolding the graph of heap objects below it. Objects that are shared are
copied at each place. An object that is met again on the path to itself ends the path with a mark, and so
does one that lies too deep.

One set of addresses goes through the whole conversion. It holds the objects whose content is being
converted: an object comes into it before its content is, and leaves it afterwards.
-/

namespace Scriptlet

open Budget (maxDataDepth)

/-! ## The objects on the way -/

/-- Addresses are ordered by their index. The language does not show it; sets find addresses by it. -/
instance : Ord Address := ⟨compareOn Address.index⟩

instance : Std.TransOrd Address := inferInstanceAs (Std.TransCmp (compareOn Address.index))

instance : Std.LawfulEqOrd Address where
  compare_self {a} := Nat.compare_eq_eq.2 rfl
  eq_of_compare {a b} h := by
    cases a
    cases b
    exact congrArg Address.mk (Nat.compare_eq_eq.1 h)

/-- The objects whose content is being converted. After `n` more of them there are as many as there may be, so
a conversion gets at most `n` objects deeper. -/
@[ext]
structure Visiting (n : Nat) where
  ids : Std.ExtTreeSet Address
  maxDataDepth_le : maxDataDepth ≤ ids.size + n

namespace Visiting

variable {n : Nat}

/-- At the root. -/
def start : Visiting maxDataDepth := ⟨∅, Nat.le_add_left ..⟩

/-- An object comes in. -/
def enter (s : Visiting (n + 1)) (a : Address) (new : a ∉ s.ids) : Visiting n where
  ids := s.ids.insert a
  maxDataDepth_le := by
    have le := s.maxDataDepth_le
    rw [Std.ExtTreeSet.size_insert, if_neg (mt Std.ExtTreeSet.mem_iff_contains.2 new)]
    omega

/-- An object leaves. -/
def leave (s : Visiting n) (a : Address) : Visiting (n + 1) where
  ids := s.ids.erase a
  maxDataDepth_le := by
    have le := s.maxDataDepth_le
    have := Std.ExtTreeSet.size_le_size_erase (t := s.ids) (k := a)
    omega

end Visiting

/-! ## The conversion -/

namespace Heap.Cell

/-- The mark of an object that contains itself. -/
def cycleMark : Cell → String
  | .list .. => "[...]"
  | .tuple _ => "(...)"
  | .dict .. => "\x7b...\x7d"
  | _ => "..."

/-- The host object for the content of a heap object, where `convert` is for the values in it. -/
def convertWith {σ : Type} (l : Library) (h : Heap) (convert : Value → StateT σ Attempt Object) :
    Cell → StateT σ Attempt Object
  | .text s => return .string s
  | .list items _ => return .list (← items.toList.mapM convert)
  | .tuple items => return .tuple (← items.toList.mapM convert)
  | .dict entries _ =>
    return .dict (← entries.values.mapM fun e => return (← convert e.1, ← convert e.2))
  | .struct fields => return .struct (← fields.entries.mapM fun f => return (f.1, ← convert f.2))
  | .closure c => do
    let f ← l.function c.function
    return .described s!"<function {f.name}>"
  | .method m => do
    let e ← l.native m.native
    let type ← m.receiver.type h
    return .described s!"<bound method {e.name} of {type.name}>"
  | .frame _ => return .described "<frame>"

end Heap.Cell

namespace Value

/-- The object of a value, where the state holds the objects whose content is being converted. -/
def unfoldVisiting (l : Library) (h : Heap) : (n : Nat) → Value → StateT (Visiting n) Attempt Object
  | _, .none => return .none
  | _, .bool b => return .bool b
  | _, .int n => return .int n
  | _, .text s => return .string s
  | _, .native id => do
    let e ← l.native id
    return .described s!"<built-in function {e.name}>"
  | 0, .ref a => fun s => do
    if a ∈ s.ids then return (.cycle (← h.read a).cycleMark, s)
    -- There are as many objects on the way as there may be.
    return (.described "...", s)
  | n + 1, .ref a => fun s => do
    if visited : a ∈ s.ids then return (.cycle (← h.read a).cycleMark, s)
    else if maxDataDepth ≤ s.ids.size then return (.described "...", s)
    else
      let c ← h.read a
      let (o, s) ← c.convertWith l h (unfoldVisiting l h n) (s.enter a visited)
      return (o, s.leave a)

/-- The object of a value. -/
def unfold (l : Library) (h : Heap) (v : Value) : Attempt Object :=
  (v.unfoldVisiting l h maxDataDepth).run' .start

end Value

end Scriptlet
