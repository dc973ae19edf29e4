import Scriptlet.Object.Unfold

/-!
# Unfolding along a path

A conversion carries one set of objects through the whole graph below a value, and changes it on the way. What it
does at a value only depends on the path from the root to the value: the set holds the objects of that path, and
after each conversion it is what it was before. So the conversion can be said again without a set, with the path
handed down to the values below an object.
-/

namespace Scriptlet

open Budget (maxDataDepth)

/-! ## States that are left as they are -/

section

variable {σ α β : Type} {s : σ}

/-- From a state `s`, a computation does the same as one without a state, and leaves `s` as it is. -/
def Leaves (s : σ) (x : StateT σ Attempt α) (y : Attempt α) : Prop := x s = y >>= fun a => .ok (a, s)

namespace Leaves

theorem pure (a : α) : Leaves s (Pure.pure a) (.ok a) := rfl

theorem lift (y : Attempt α) : Leaves s (monadLift y) y := rfl

theorem bind {x : StateT σ Attempt α} {y : Attempt α} {f : α → StateT σ Attempt β} {g : α → Attempt β}
    (first : Leaves s x y) (next : ∀ a, Leaves s (f a) (g a)) : Leaves s (x >>= f) (y >>= g) := by
  have ran : (x >>= f) s = x s >>= fun p => f p.1 p.2 := rfl
  unfold Leaves at first
  unfold Leaves
  rw [ran, first]
  cases y with
  | error e => rfl
  | ok a => exact next a

theorem mapM {f : α → StateT σ Attempt β} {g : α → Attempt β} (each : ∀ a, Leaves s (f a) (g a)) (as : List α) :
    Leaves s (as.mapM f) (as.mapM g) := by
  induction as with
  | nil => exact .pure []
  | cons a as ih =>
    rw [List.mapM_cons, List.mapM_cons]
    exact (each a).bind fun b => ih.bind fun bs => .pure (b :: bs)

end Leaves

end

/-! ## The objects of a path -/

namespace Visiting

variable {n : Nat} {path : List Address} {a : Address}

/-- The set holds the objects of a path, none of which is on the path twice. -/
structure Holds (s : Visiting n) (path : List Address) : Prop where
  nodup : path.Nodup
  mem_iff : ∀ a, a ∈ s.ids ↔ a ∈ path

theorem holds_start : start.Holds [] :=
  ⟨.nil, fun _ => ⟨fun h => absurd h Std.ExtTreeSet.not_mem_empty, fun h => absurd h List.not_mem_nil⟩⟩

/-- Every set is that of a path. -/
theorem exists_holds (s : Visiting n) : ∃ path, s.Holds path := by
  refine ⟨s.ids.toList, ?_, fun a => Std.ExtTreeSet.mem_toList.symm⟩
  exact Std.ExtTreeSet.distinct_toList.imp fun differ same => differ (Std.LawfulEqCmp.compare_eq_iff_eq.2 same)

theorem Holds.size_eq {s : Visiting n} (holds : s.Holds path) : s.ids.size = path.length := by
  obtain ⟨nodup, mem_iff⟩ := holds
  rw [← Std.ExtTreeSet.length_toList]
  have distinct : s.ids.toList.Nodup :=
    Std.ExtTreeSet.distinct_toList.imp fun differ same => differ (Std.LawfulEqCmp.compare_eq_iff_eq.2 same)
  refine ((List.perm_ext_iff_of_nodup distinct nodup).2 fun a => ?_).length_eq
  rw [Std.ExtTreeSet.mem_toList, mem_iff]

theorem Holds.contains {s : Visiting n} (holds : s.Holds path) (on : a ∈ s.ids) : path.contains a = true :=
  List.contains_iff_mem.2 ((holds.mem_iff a).1 on)

theorem Holds.not_contains {s : Visiting n} (holds : s.Holds path) (new : a ∉ s.ids) : path.contains a = false :=
  Bool.eq_false_iff.2 fun met => new ((holds.mem_iff a).2 (List.contains_iff_mem.1 met))

theorem Holds.enter {s : Visiting (n + 1)} (holds : s.Holds path) (new : a ∉ s.ids) :
    (s.enter a new).Holds (a :: path) := by
  refine ⟨List.nodup_cons.2 ⟨fun mem => new ((holds.mem_iff a).2 mem), holds.nodup⟩, fun b => ?_⟩
  show b ∈ s.ids.insert a ↔ _
  rw [Std.ExtTreeSet.mem_insert, Std.LawfulEqCmp.compare_eq_iff_eq, holds.mem_iff, List.mem_cons, eq_comm]

/-- What came in and leaves again has not changed the set. -/
theorem leave_enter (s : Visiting (n + 1)) (new : a ∉ s.ids) : (s.enter a new).leave a = s := by
  have same : (s.ids.insert a).erase a = s.ids := by
    refine Std.ExtTreeSet.ext_mem fun b => ?_
    rw [Std.ExtTreeSet.mem_erase, Std.ExtTreeSet.mem_insert, Ne, Std.LawfulEqCmp.compare_eq_iff_eq]
    constructor
    · rintro ⟨ne, eq | mem⟩
      · exact absurd eq ne
      · exact mem
    · intro mem
      exact ⟨fun eq => new (eq ▸ mem), .inr mem⟩
  exact Visiting.ext same

end Visiting

/-! ## The conversion along a path -/

namespace Value

/-- The object of a value that may have `n` more heap objects on the path from the root, where `path` holds
those above it. -/
def unfoldWithin (l : Library) (h : Heap) : (n : Nat) → (path : List Address) → Value → Attempt Object
  | _, _, .none => .ok .none
  | _, _, .bool b => .ok (.bool b)
  | _, _, .int n => .ok (.int n)
  | _, _, .text s => .ok (.string s)
  | _, _, .native id => do
    let e ← l.native id
    return .described s!"<built-in function {e.name}>"
  | 0, path, .ref a => do
    if path.contains a then return .cycle (← h.read a).cycleMark
    return .described "..."
  | n + 1, path, .ref a => do
    if path.contains a then return .cycle (← h.read a).cycleMark
    let unfold := unfoldWithin l h n (a :: path)
    match ← h.read a with
    | .text s => return .string s
    | .list items _ => return .list (← items.toList.mapM unfold)
    | .tuple items => return .tuple (← items.toList.mapM unfold)
    | .dict entries _ =>
      return .dict (← entries.values.mapM fun e => return (← unfold e.1, ← unfold e.2))
    | .struct fields =>
      return .struct (← fields.entries.mapM fun f => return (f.1, ← unfold f.2))
    | .closure c =>
      let f ← l.function c.function
      return .described s!"<function {f.name}>"
    | .method m =>
      let e ← l.native m.native
      let type ← m.receiver.type h
      return .described s!"<bound method {e.name} of {type.name}>"
    | .frame _ => return .described "<frame>"

variable {l : Library} {h : Heap} {n : Nat} {path : List Address} {v : Value}

theorem leaves_of_not_ref {s : Visiting n} (k : Nat) (off : v.address? = Option.none) :
    Leaves s (v.unfoldVisiting l h n) (v.unfoldWithin l h k path) := by
  cases v with
  | ref a => cases off
  | native id => cases n <;> cases k <;> exact (Leaves.lift _).bind fun e => .pure _
  | _ => cases n <;> cases k <;> exact .pure _

theorem leaves_of_met {s : Visiting n} {a : Address} (k : Nat) (on : a ∈ s.ids) (met : path.contains a = true) :
    Leaves s ((ref a).unfoldVisiting l h n) ((ref a).unfoldWithin l h k path) := by
  cases n <;> cases k <;> simp only [Leaves, unfoldVisiting, unfoldWithin, on, met, if_true, dite_true] <;>
    cases h.read a <;> rfl

theorem leaves_convertWith {σ : Type} {s : σ} {convert : Value → StateT σ Attempt Object} {a : Address}
    (each : ∀ v, Leaves s (convert v) (unfoldWithin l h n (a :: path) v)) (new : path.contains a = false)
    {c : Heap.Cell} (read : h.read a = .ok c) :
    Leaves s (c.convertWith l h convert) (unfoldWithin l h (n + 1) path (.ref a)) := by
  simp only [unfoldWithin, new, read]
  cases c with
  | text t => exact .pure _
  | list items frozen => exact (Leaves.mapM each _).bind fun os => .pure _
  | tuple items => exact (Leaves.mapM each _).bind fun os => .pure _
  | dict entries frozen =>
    refine Leaves.bind (.mapM (fun e => ?_) _) fun os => .pure _
    exact (each e.1).bind fun k => (each e.2).bind fun o => .pure (k, o)
  | struct fields =>
    refine Leaves.bind (.mapM (fun f => ?_) _) fun os => .pure _
    exact (each f.2).bind fun o => .pure (f.1, o)
  | closure c => exact (Leaves.lift (l.function c.function)).bind fun f => .pure _
  | method m =>
    exact (Leaves.lift (l.native m.native)).bind fun e => (Leaves.lift (m.receiver.type h)).bind fun t => .pure _
  | frame f => exact .pure _

/-- A conversion with a set that holds the objects of a path does what the path says, and leaves the set as it is. -/
theorem leaves_unfoldVisiting {s : Visiting n} (holds : s.Holds path) :
    Leaves s (v.unfoldVisiting l h n) (v.unfoldWithin l h (maxDataDepth - path.length) path) := by
  induction n generalizing v path with
  | zero =>
    cases v with
    | ref a =>
      by_cases on : a ∈ s.ids
      · exact leaves_of_met _ on (holds.contains on)
      · have none : maxDataDepth - path.length = 0 := Nat.sub_eq_zero_of_le (holds.size_eq ▸ s.maxDataDepth_le)
        simp only [Leaves, none, unfoldVisiting, unfoldWithin, on, holds.not_contains on, if_false]
        rfl
    | _ => exact leaves_of_not_ref _ rfl
  | succ n ih =>
    cases v with
    | ref a =>
      by_cases on : a ∈ s.ids
      · exact leaves_of_met _ on (holds.contains on)
      have new := holds.not_contains on
      by_cases full : maxDataDepth ≤ s.ids.size
      · have none : maxDataDepth - path.length = 0 := Nat.sub_eq_zero_of_le (holds.size_eq ▸ full)
        simp only [Leaves, none, unfoldVisiting, unfoldWithin, on, full, new, if_true, dite_false]
        rfl
      · have room : maxDataDepth - path.length = maxDataDepth - (a :: path).length + 1 := by
          rw [holds.size_eq] at full
          rw [List.length_cons]
          omega
        rw [room]
        cases read : h.read a with
        | error e =>
          simp only [Leaves, unfoldVisiting, unfoldWithin, on, full, new, read, if_false, dite_false]
          rfl
        | ok c =>
          -- The object comes in, its content is converted with one object more on the path, and it leaves again.
          have inside := leaves_convertWith (fun v => ih (v := v) (holds.enter on)) new read
          have ran : (ref a).unfoldVisiting l h (n + 1) s =
              c.convertWith l h (unfoldVisiting l h n) (s.enter a on) >>= fun p => .ok (p.1, p.2.leave a) := by
            simp only [unfoldVisiting, on, full, read, if_false, dite_false]
            rfl
          unfold Leaves at inside ⊢
          rw [ran, inside]
          generalize unfoldWithin l h _ path (ref a) = r
          cases r with
          | error e => rfl
          | ok o => exact congrArg (fun s => Except.ok (o, s)) (s.leave_enter on)
    | _ => exact leaves_of_not_ref _ rfl

/-- The object of a value is found by following paths from it. -/
theorem unfold_eq_unfoldWithin (l : Library) (h : Heap) (v : Value) :
    v.unfold l h = v.unfoldWithin l h maxDataDepth [] := by
  have ran : v.unfoldVisiting l h maxDataDepth .start = _ := leaves_unfoldVisiting Visiting.holds_start
  unfold unfold StateT.run'
  rw [ran]
  cases v.unfoldWithin l h maxDataDepth [] <;> rfl

end Value

end Scriptlet
