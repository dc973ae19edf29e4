import Scriptlet.Object.Basic
import Scriptlet.Proofs.Data.Lists
import Scriptlet.Proofs.Data.Maps

/-!
# The parts of an object

Where an object lies inside another one, what is left of an object when all that lies too deep is replaced by a mark,
and an object in which no key and no field occurs twice.
-/

namespace Scriptlet

namespace Object

variable {o : Object} {d n : Nat}

/-! ## Parts -/

/-- The objects that a container holds. -/
def parts : Object → List Object
  | .list items => items
  | .tuple items => items
  | .dict pairs => pairs.flatMap fun e => [e.1, e.2]
  | .struct fields => fields.map Prod.snd
  | _ => []

/-- The object with its parts changed. -/
def mapParts (f : Object → Object) : Object → Object
  | .list items => .list (items.map f)
  | .tuple items => .tuple (items.map f)
  | .dict pairs => .dict (pairs.map fun e => (f e.1, f e.2))
  | .struct fields => .struct (fields.map fun e => (e.1, f e.2))
  | o => o

theorem parts_mapParts (f : Object → Object) (o : Object) : (o.mapParts f).parts = o.parts.map f := by
  cases o <;> simp [mapParts, parts, List.flatMap_map, List.map_flatMap]

theorem mapParts_eq_self {f : Object → Object} (h : ∀ p ∈ o.parts, f p = p) : o.mapParts f = o := by
  cases o with
  | list items => exact congrArg list (map_eq_self h)
  | tuple items => exact congrArg tuple (map_eq_self h)
  | dict pairs =>
    refine congrArg dict (map_eq_self fun e he => ?_)
    have parts (p : Object) (hp : p ∈ [e.1, e.2]) : f p = p := h p (List.mem_flatMap.2 ⟨e, he, hp⟩)
    rw [parts e.1 (by simp), parts e.2 (by simp)]
  | struct fields =>
    refine congrArg struct (map_eq_self fun e he => ?_)
    rw [h e.2 (List.mem_map_of_mem he)]
  | _ => rfl

/-- `p.Lies k o` says that `p` lies in `o` under `k` containers. -/
inductive Lies (p : Object) : Nat → Object → Prop where
  | self : Lies p 0 p
  | inside {k : Nat} {q o : Object} (part : q ∈ o.parts) (lies : Lies p k q) : Lies p (k + 1) o

theorem lies_zero_iff {p : Object} : p.Lies 0 o ↔ p = o :=
  ⟨fun h => by cases h; rfl, fun h => h ▸ .self⟩

theorem lies_succ_iff {k : Nat} {p : Object} : p.Lies (k + 1) o ↔ ∃ q ∈ o.parts, p.Lies k q := by
  constructor
  · rintro (_ | ⟨part, lies⟩)
    exact ⟨_, part, lies⟩
  · rintro ⟨q, part, lies⟩
    exact .inside part lies

/-- Whether the value of an object is kept on the heap. -/
def onHeap : Object → Bool
  | .string _ | .list _ | .tuple _ | .dict _ | .struct _ => true
  | _ => false

theorem parts_of_not_onHeap (h : o.onHeap = false) : o.parts = [] := by
  cases o <;> simp_all [onHeap, parts]

/-- Whether an object only ever comes out. -/
def outputOnly : Object → Bool
  | .described _ | .cycle _ => true
  | _ => false

theorem outputOnly_mapParts (f : Object → Object) (o : Object) : (o.mapParts f).outputOnly = o.outputOnly := by
  cases o <;> rfl

/-! ## Cutting -/

/-- The object with a mark in place of each string and each container that lies under `n` containers. -/
def cut : Nat → Object → Object
  | 0, o => if o.onHeap then .described "..." else o
  | n + 1, o => o.mapParts (cut n)

theorem parts_cut_zero (o : Object) : (o.cut 0).parts = [] := by
  unfold cut
  split
  · rfl
  · rename_i h
    exact parts_of_not_onHeap (Bool.eq_false_iff.2 h)

/-- What lies in the cut object was in the object, and is cut itself. -/
theorem lies_cut_iff {q : Object} {k : Nat} :
    q.Lies k (o.cut d) ↔ k ≤ d ∧ ∃ p : Object, p.Lies k o ∧ q = p.cut (d - k) := by
  induction k generalizing d o with
  | zero => simp [lies_zero_iff]
  | succ k ih =>
    cases d with
    | zero => simp [lies_succ_iff, parts_cut_zero]
    | succ d =>
      simp only [lies_succ_iff, cut, parts_mapParts, List.mem_map, Nat.add_le_add_iff_right,
        Nat.add_sub_add_right]
      constructor
      · rintro ⟨_, ⟨r, part, rfl⟩, lies⟩
        obtain ⟨le, p, was, rfl⟩ := ih.1 lies
        exact ⟨le, p, ⟨r, part, was⟩, rfl⟩
      · rintro ⟨le, p, ⟨r, part, lies⟩, rfl⟩
        exact ⟨r.cut d, ⟨r, part, rfl⟩, ih.2 ⟨le, p, lies, rfl⟩⟩

/-- Cutting below all strings and containers changes nothing. -/
theorem cut_eq_self (h : ∀ k (p : Object), p.Lies k o → p.onHeap → k < d) : o.cut d = o := by
  induction d generalizing o with
  | zero =>
    have plain : ¬ o.onHeap := fun heaped => Nat.not_lt_zero _ (h 0 o .self heaped)
    rw [cut, if_neg plain]
  | succ d ih =>
    refine mapParts_eq_self fun p part => ih fun k q lies heaped => ?_
    exact Nat.lt_of_succ_lt_succ (h (k + 1) q (.inside part lies) heaped)

theorem outputOnly_cut (h : (o.cut n).outputOnly) : o.outputOnly ∨ (n = 0 ∧ o.onHeap ∧ o.cut n = .described "...") := by
  cases n with
  | zero =>
    by_cases heaped : o.onHeap
    · exact .inr ⟨rfl, heaped, by rw [cut, if_pos heaped]⟩
    · rw [cut, if_neg heaped] at h
      exact .inl h
  | succ n =>
    rw [cut, outputOnly_mapParts] at h
    exact .inl h

/-- All that lies in an object lies under fewer than `n` containers, and none of it only ever comes out. -/
def Proper (n : Nat) (o : Object) : Prop :=
  ∀ k (p : Object), p.Lies k o → k < n ∧ p.outputOnly = false

theorem proper_succ (self : o.outputOnly = false) (parts : ∀ q ∈ o.parts, q.Proper n) : o.Proper (n + 1) := by
  intro k p lies
  cases lies with
  | self => exact ⟨Nat.succ_pos n, self⟩
  | inside part lies =>
    obtain ⟨lt, inner⟩ := parts _ part _ _ lies
    exact ⟨Nat.succ_lt_succ lt, inner⟩

theorem Proper.part {q : Object} (proper : o.Proper (n + 1)) (part : q ∈ o.parts) : q.Proper n := by
  intro k p lies
  obtain ⟨lt, inner⟩ := proper _ p (.inside part lies)
  exact ⟨Nat.lt_of_succ_lt_succ lt, inner⟩

/-- The test whether an object is proper. -/
def isProper : Nat → Object → Bool
  | 0, _ => false
  | n + 1, o => !o.outputOnly && o.parts.all (isProper n)

theorem proper_iff : o.Proper n ↔ isProper n o := by
  induction n generalizing o with
  | zero => exact ⟨fun proper => absurd (proper 0 o .self).1 (Nat.not_lt_zero 0), fun h => Bool.noConfusion h⟩
  | succ n ih =>
    rw [isProper, Bool.and_eq_true, Bool.not_eq_true', List.all_eq_true]
    constructor
    · exact fun proper => ⟨(proper 0 o .self).2, fun q part => ih.1 (proper.part part)⟩
    · exact fun h => proper_succ h.1 fun q part => ih.2 (h.2 q part)

instance (n : Nat) (o : Object) : Decidable (o.Proper n) := decidable_of_iff' _ proper_iff

/-- Cutting brings in marks for the strings and containers at the depth of the cut, and nothing else that only ever
comes out. -/
theorem lies_cut_outputOnly_iff (proper : o.Proper (d + 1)) {q : Object} (out : q.outputOnly)
    {k : Nat} : q.Lies k (o.cut d) ↔ k = d ∧ q = .described "..." ∧ ∃ p : Object, p.onHeap ∧ p.Lies d o := by
  rw [lies_cut_iff]
  constructor
  · rintro ⟨le, p, lies, rfl⟩
    rcases outputOnly_cut out with was | ⟨depth, heaped, mark⟩
    · rw [(proper k p lies).2] at was
      cases was
    · obtain rfl : k = d := by omega
      exact ⟨rfl, mark, p, heaped, lies⟩
  · rintro ⟨rfl, rfl, p, heaped, lies⟩
    refine ⟨Nat.le_refl k, p, lies, ?_⟩
    rw [Nat.sub_self, cut, if_pos heaped]

theorem cut_eq_self_iff (proper : o.Proper (d + 1)) : o.cut d = o ↔ ∀ p : Object, p.Lies d o → ¬ p.onHeap := by
  constructor
  · intro same p lies heaped
    have mark : (described "...").Lies d (o.cut d) :=
      (lies_cut_outputOnly_iff proper rfl).2 ⟨rfl, rfl, p, heaped, lies⟩
    rw [same] at mark
    have inner := (proper d _ mark).2
    cases inner
  · intro none
    refine cut_eq_self fun k p lies heaped => ?_
    have lt := (proper k p lies).1
    have ne : k ≠ d := by
      rintro rfl
      exact none p lies heaped
    omega

/-! ## Merging -/

mutual

/-- The object in which each key and each field occurs once: where it came first, with the value that came last. -/
def merged : Object → Object
  | .none => .none
  | .bool b => .bool b
  | .int n => .int n
  | .string s => .string s
  | .list items => .list (mergedItems items)
  | .tuple items => .tuple (mergedItems items)
  | .dict pairs => .dict (OrderedMap.lastWins (mergedPairs pairs))
  | .struct fields => .struct (OrderedMap.lastWins (mergedFields fields))
  | .described text => .described text
  | .cycle text => .cycle text

def mergedItems : List Object → List Object
  | [] => []
  | o :: os => o.merged :: mergedItems os

def mergedPairs : List (Object × Object) → List (Object × Object)
  | [] => []
  | (k, v) :: ps => (k.merged, v.merged) :: mergedPairs ps

def mergedFields : List (String × Object) → List (String × Object)
  | [] => []
  | (x, v) :: fs => (x, v.merged) :: mergedFields fs

end

example : (dict [(string "a", int 1), (string "b", int 2), (string "a", int 3)]).merged =
    dict [(string "a", int 3), (string "b", int 2)] := by decide +kernel

/-- No key of a dictionary and no field of a struct in the object occurs twice. -/
def Unrepeated (o : Object) : Prop :=
  (∀ k ps, (dict ps).Lies k o → (ps.map Prod.fst).Nodup) ∧ ∀ k fs, (struct fs).Lies k o → (fs.map Prod.fst).Nodup

theorem Unrepeated.part {q : Object} (once : o.Unrepeated) (part : q ∈ o.parts) : q.Unrepeated :=
  ⟨fun _ ps lies => once.1 _ ps (.inside part lies), fun _ fs lies => once.2 _ fs (.inside part lies)⟩

mutual

/-- Merging changes nothing if nothing is repeated. -/
theorem merged_eq_self : (o : Object) → o.Unrepeated → o.merged = o
  | .none, _ => rfl
  | .bool _, _ => rfl
  | .int _, _ => rfl
  | .string _, _ => rfl
  | .list items, once => by rw [merged, mergedItems_eq_self items fun q hq => once.part hq]
  | .tuple items, once => by rw [merged, mergedItems_eq_self items fun q hq => once.part hq]
  | .dict pairs, once => by
    have parts (p : Object × Object) (hp : p ∈ pairs) (q : Object) (hq : q ∈ [p.1, p.2]) : q.Unrepeated :=
      once.part (List.mem_flatMap.2 ⟨p, hp, hq⟩)
    rw [merged, mergedPairs_eq_self pairs fun p hp => ⟨parts p hp p.1 (by simp), parts p hp p.2 (by simp)⟩,
      OrderedMap.lastWins_eq_self (once.1 0 pairs .self)]
  | .struct fields, once => by
    rw [merged, mergedFields_eq_self fields fun f hf => once.part (List.mem_map_of_mem hf),
      OrderedMap.lastWins_eq_self (once.2 0 fields .self)]
  | .described _, _ => rfl
  | .cycle _, _ => rfl

theorem mergedItems_eq_self : (os : List Object) → (∀ q ∈ os, q.Unrepeated) → mergedItems os = os
  | [], _ => rfl
  | o :: os, once => by
    rw [List.forall_mem_cons] at once
    rw [mergedItems, merged_eq_self o once.1, mergedItems_eq_self os once.2]

theorem mergedPairs_eq_self : (ps : List (Object × Object)) → (∀ p ∈ ps, p.1.Unrepeated ∧ p.2.Unrepeated) →
    mergedPairs ps = ps
  | [], _ => rfl
  | (k, v) :: ps, once => by
    rw [List.forall_mem_cons] at once
    rw [mergedPairs, merged_eq_self k once.1.1, merged_eq_self v once.1.2, mergedPairs_eq_self ps once.2]

theorem mergedFields_eq_self : (fs : List (String × Object)) → (∀ f ∈ fs, f.2.Unrepeated) → mergedFields fs = fs
  | [], _ => rfl
  | (x, v) :: fs, once => by
    rw [List.forall_mem_cons] at once
    rw [mergedFields, merged_eq_self v once.1, mergedFields_eq_self fs once.2]

end

end Object

end Scriptlet
