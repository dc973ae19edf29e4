import Scriptlet.Proofs.Object.Depiction

/-!
# Where the objects of values lie

An object that comes out of a conversion holds, at each place, the object of a value: of the one that lies at the same
place in the value that was converted. What becomes of a value at its place depends on the path to it only where a
cycle closes or where the path is too long.
-/

namespace Scriptlet

open Heap (Cell)

theorem Object.Lies.part {p q o : Object} {k : Nat} (lies : q.Lies k o) (part : p ∈ q.parts) : p.Lies (k + 1) o := by
  induction lies with
  | self => exact .inside part .self
  | inside outer _ ih => exact .inside outer ih

namespace Value

variable {l : Library} {h : Heap} {n m k : Nat} {path path' above inner : List Address} {a : Address} {c : Cell}
  {v w : Value} {o p : Object}

/-- What lies in the object of a value is the object of what lies in the value, found along the path to it. -/
theorem leads_of_lies (ran : v.unfoldWithin l h n above = .ok o) (lies : p.Lies k o) :
    ∃ path w, Leads h v path w ∧ path.length = k ∧ k ≤ n ∧ w.unfoldWithin l h (n - k) (path ++ above) = .ok p := by
  induction lies generalizing v n above with
  | self => exact ⟨[], v, .self, rfl, Nat.zero_le n, ran⟩
  | @inside k q o part lies ih =>
    cases v with
    | ref a =>
      rcases unfoldWithin_ref_cases ran with ⟨-, c, -, rfl⟩ | ⟨-, -, rfl⟩ | ⟨-, m, c, rfl, found, depicted⟩
      · cases part
      · cases part
      · obtain ⟨u, inside, ran⟩ := depicted.of_mem_parts part
        obtain ⟨path, w, leads, rfl, le, ran⟩ := ih ran
        refine ⟨path ++ [a], w, leads.of_part found inside, List.length_append, Nat.succ_le_succ le, ?_⟩
        rw [Nat.add_sub_add_right, List.append_assoc]
        exact ran
    | _ =>
      rw [(unfoldWithin_of_not_ref rfl ran).1] at part
      cases part

/-- What lies in a value, at a place that the conversion gets to, has its object at the same place. -/
theorem lies_of_leads (ran : v.unfoldWithin l h n above = .ok o) (leads : Leads h v path w)
    (nodup : (path ++ above).Nodup) (le : path.length ≤ n) :
    ∃ p, w.unfoldWithin l h (n - path.length) (path ++ above) = .ok p ∧ p.Lies path.length o := by
  induction leads with
  | self => exact ⟨o, ran, .self⟩
  | @inside path a c w _ found part ih =>
    obtain ⟨new, nodup⟩ := List.nodup_cons.1 nodup
    obtain ⟨q, ran, lies⟩ := ih nodup (Nat.le_of_succ_le le)
    rcases unfoldWithin_ref_cases ran with ⟨on, -⟩ | ⟨-, none, -⟩ | ⟨-, m, c', room, found', depicted⟩
    · exact absurd on new
    · exact absurd le (Nat.not_le_of_lt (Nat.lt_succ_of_le (Nat.le_of_sub_eq_zero none)))
    · obtain rfl := Option.some.inj (found.symm.trans found')
      obtain ⟨p, part', ran⟩ := depicted.of_mem part
      refine ⟨p, ?_, lies.part part'⟩
      rw [List.length_cons, Nat.sub_succ, room]
      exact ran

/-! ## Values without cycles -/

/-- No object that lies in a value lies in itself. -/
def Acyclic (h : Heap) (v : Value) : Prop :=
  ∀ path a, Leads h v path (.ref a) → ∀ loop, Leads h (.ref a) loop (.ref a) → loop = []

/-- No object of a path lies in the value. -/
def Avoids (h : Heap) (path : List Address) (v : Value) : Prop := ∀ a ∈ path, ∀ inner, ¬ Leads h v inner (.ref a)

theorem Acyclic.of_leads (acyclic : v.Acyclic h) (leads : Leads h v path w) : w.Acyclic h :=
  fun _ b inside => acyclic _ b (leads.trans inside)

/-- An object on the path to a value holds the value. -/
theorem Leads.of_mem (leads : Leads h v path w) (on : a ∈ path) : ∃ inner, Leads h (.ref a) inner w ∧ inner ≠ [] := by
  induction leads with
  | self => cases on
  | @inside path b c w _ found part ih =>
    rcases List.mem_cons.1 on with rfl | on
    · exact ⟨[a], .inside .self found part, List.cons_ne_nil a []⟩
    · obtain ⟨inner, leads, -⟩ := ih on
      exact ⟨b :: inner, .inside leads found part, List.cons_ne_nil b inner⟩

/-- A value without cycles holds none of the objects on a path to it. -/
theorem Acyclic.avoids (acyclic : w.Acyclic h) (leads : Leads h v path w) : Avoids h path w := by
  intro a on inner inside
  obtain ⟨outer, around, ne⟩ := leads.of_mem on
  have loop := acyclic inner a inside _ (around.trans inside)
  exact ne (List.append_eq_nil_iff.1 loop).2

theorem Avoids.part (avoids : Avoids h path (.ref a)) (acyclic : (ref a).Acyclic h) (found : h.cell? a = some c)
    (part : w ∈ c.parts) : Avoids h (a :: path) w := by
  have leads : Leads h (.ref a) [a] w := .inside .self found part
  refine List.forall_mem_cons.2 ⟨?_, fun b on inner inside => avoids b on _ (leads.trans inside)⟩
  exact (acyclic.of_leads leads).avoids leads a List.mem_cons_self

/-- In the object of a value without cycles there is no mark of a cycle, whatever path leads to the value. -/
theorem not_lies_cycle (acyclic : v.Acyclic h) (avoids : Avoids h above v) (ran : v.unfoldWithin l h n above = .ok o)
    (k : Nat) (text : String) : ¬ (Object.cycle text).Lies k o := by
  intro lies
  obtain ⟨path, w, leads, -, -, ran⟩ := leads_of_lies ran lies
  cases w with
  | ref a =>
    rcases unfoldWithin_ref_cases ran with ⟨on, -⟩ | ⟨-, -, mark⟩ | ⟨-, m, c, -, -, depicted⟩
    · rcases List.mem_append.1 on with on | on
      · exact (acyclic.of_leads leads).avoids leads a on [] .self
      · exact avoids a on path leads
    · cases mark
    · cases depicted
  | _ => exact (unfoldWithin_of_not_ref rfl ran).2.1 text rfl

/-- All objects in a value, strings and functions too, lie under fewer than `n` containers. -/
def FitsIn (h : Heap) (n : Nat) (v : Value) : Prop := ∀ path a, Leads h v path (.ref a) → path.length < n

theorem FitsIn.part (fits : FitsIn h (n + 1) (.ref a)) (found : h.cell? a = some c) (part : w ∈ c.parts) :
    FitsIn h n w := by
  intro path b leads
  have outside := fits _ b (leads.of_part found part)
  rw [List.length_append] at outside
  exact Nat.lt_of_succ_lt_succ outside

/-- There is no room for a cycle in a value that fits: around it there would be paths of any length. -/
theorem FitsIn.acyclic (fits : FitsIn h n v) : v.Acyclic h := by
  intro path a leads loop around
  by_contra ne
  have longer (k : Nat) : ∃ path, Leads h v path (.ref a) ∧ k ≤ path.length := by
    induction k with
    | zero => exact ⟨path, leads, Nat.zero_le _⟩
    | succ k ih =>
      obtain ⟨path, leads, le⟩ := ih
      refine ⟨loop ++ path, leads.trans around, ?_⟩
      have pos := List.length_pos_of_ne_nil ne
      rw [List.length_append]
      omega
  obtain ⟨path, leads, le⟩ := longer n
  exact Nat.not_lt_of_le le (fits path a leads)

/-- The object of a value without cycles that fits at two places is the same at both. -/
theorem unfoldWithin_eq_of_avoids (acyclic : v.Acyclic h) (avoids : Avoids h path v) (avoids' : Avoids h path' v)
    (fits : FitsIn h n v) (fits' : FitsIn h m v) : v.unfoldWithin l h n path = v.unfoldWithin l h m path' := by
  induction n generalizing v m path path' with
  | zero =>
    cases v with
    | ref a => exact absurd (fits [] a .self) (Nat.not_lt_zero 0)
    | _ => cases m <;> rfl
  | succ n ih =>
    cases v with
    | ref a =>
      cases m with
      | zero => exact absurd (fits' [] a .self) (Nat.not_lt_zero 0)
      | succ m =>
        have new (path : List Address) (avoids : Avoids h path (.ref a)) : a ∉ path := fun on => avoids a on [] .self
        rw [unfoldWithin_succ (new path avoids), unfoldWithin_succ (new path' avoids')]
        cases read : h.read a with
        | error e => rfl
        | ok c =>
          have found := Heap.cell?_of_read read
          refine Cell.convert_congr fun w part => ?_
          exact ih (acyclic.of_leads (.inside .self found part)) (avoids.part acyclic found part)
            (avoids'.part acyclic found part) (fits.part found part) (fits'.part found part)
    | _ => cases m <;> rfl

end Value

/-! ## Values that can be converted -/

theorem Library.exists_native {l : Library} {id : NativeId} (known : id.index < l.natives.size) :
    ∃ e, l.native id = .ok e := by
  unfold native
  rw [Array.getElem?_eq_getElem known]
  exact ⟨_, rfl⟩

theorem Library.exists_function {l : Library} {id : FunctionId} (known : id.index < l.functions.size) :
    ∃ f, l.function id = .ok f := by
  unfold function
  rw [Array.getElem?_eq_getElem known]
  exact ⟨_, rfl⟩

theorem Value.exists_type {h : Heap} {v : Value} (live : v.LiveIn h) : ∃ t, v.type h = .ok t := by
  cases v with
  | ref a =>
    obtain ⟨c, found⟩ := live a rfl
    exact ⟨c.type, by simp only [type, Heap.read_of_cell? found]; rfl⟩
  | _ => exact ⟨_, rfl⟩

/-- The library has what an object names, and the heap has what the name of a method needs. -/
def Heap.Cell.Named (l : Library) (h : Heap) : Cell → Prop
  | .closure c => c.function.index < l.functions.size
  | .method m => m.native.index < l.natives.size ∧ m.receiver.LiveIn h
  | _ => True

/-- What a value names or refers to is there. -/
def Value.Named (l : Library) (h : Heap) : Value → Prop
  | .native id => id.index < l.natives.size
  | .ref a => ∃ c, h.cell? a = some c ∧ c.Named l h
  | _ => True

section

variable {l : Library} {h : Heap} {c : Cell} {v : Value}

theorem Heap.Cell.named_of_isData (data : c.isData) : c.Named l h := by
  cases c with
  | closure c => cases data
  | method m => cases data
  | _ => trivial

theorem Heap.Cell.Named.exists_convert (named : c.Named l h) {f : Value → Attempt Object}
    (parts : ∀ w ∈ c.parts, ∃ o, f w = .ok o) : ∃ o, c.convert l h f = .ok o := by
  cases c with
  | text s => exact ⟨_, rfl⟩
  | list items frozen =>
    obtain ⟨os, ran⟩ := Attempt.exists_mapM parts
    exact ⟨_, Attempt.bind_eq_ok.2 ⟨os, ran, rfl⟩⟩
  | tuple items =>
    obtain ⟨os, ran⟩ := Attempt.exists_mapM parts
    exact ⟨_, Attempt.bind_eq_ok.2 ⟨os, ran, rfl⟩⟩
  | dict entries frozen =>
    have pairs : ∀ e ∈ entries.values, ∃ p, (do return (← f e.1, ← f e.2) : Attempt (Object × Object)) = .ok p := by
      intro e he
      obtain ⟨k, index⟩ := parts e.1 (List.mem_flatMap.2 ⟨e, he, by simp⟩)
      obtain ⟨o, value⟩ := parts e.2 (List.mem_flatMap.2 ⟨e, he, by simp⟩)
      exact ⟨(k, o), Attempt.bind_eq_ok.2 ⟨k, index, Attempt.bind_eq_ok.2 ⟨o, value, rfl⟩⟩⟩
    obtain ⟨ps, ran⟩ := Attempt.exists_mapM pairs
    exact ⟨_, Attempt.bind_eq_ok.2 ⟨ps, ran, rfl⟩⟩
  | struct fields =>
    have each : ∀ e ∈ fields.entries, ∃ g, (do return (e.1, ← f e.2) : Attempt (String × Object)) = .ok g := by
      intro e he
      obtain ⟨o, value⟩ := parts e.2 (List.mem_map_of_mem he)
      exact ⟨(e.1, o), Attempt.bind_eq_ok.2 ⟨o, value, rfl⟩⟩
    obtain ⟨gs, ran⟩ := Attempt.exists_mapM each
    exact ⟨_, Attempt.bind_eq_ok.2 ⟨gs, ran, rfl⟩⟩
  | closure c =>
    obtain ⟨f, ran⟩ := Library.exists_function named
    exact ⟨_, Attempt.bind_eq_ok.2 ⟨f, ran, rfl⟩⟩
  | method m =>
    obtain ⟨e, ran⟩ := Library.exists_native named.1
    obtain ⟨t, type⟩ := Value.exists_type named.2
    exact ⟨_, Attempt.bind_eq_ok.2 ⟨e, ran, Attempt.bind_eq_ok.2 ⟨t, type, rfl⟩⟩⟩
  | frame f => exact ⟨_, rfl⟩

/-- If all is there that is named in a value, the value has an object. -/
theorem Value.exists_unfoldWithin (named : ∀ path w, Leads h v path w → w.Named l h) (n : Nat) (path : List Address) :
    ∃ o, v.unfoldWithin l h n path = .ok o := by
  induction n generalizing v path with
  | zero =>
    cases v with
    | ref a =>
      obtain ⟨c, found, -⟩ := named [] _ .self
      simp only [unfoldWithin, Heap.read_of_cell? found]
      cases path.contains a <;> exact ⟨_, rfl⟩
    | native id =>
      obtain ⟨e, ran⟩ := Library.exists_native (named [] _ .self)
      exact ⟨_, Attempt.bind_eq_ok.2 ⟨e, ran, rfl⟩⟩
    | _ => exact ⟨_, rfl⟩
  | succ n ih =>
    cases v with
    | ref a =>
      obtain ⟨c, found, here⟩ := named [] _ .self
      by_cases on : a ∈ path
      · have met : path.contains a = true := List.contains_iff_mem.2 on
        simp only [unfoldWithin, met, Heap.read_of_cell? found]
        exact ⟨_, rfl⟩
      · rw [unfoldWithin_succ on, Heap.read_of_cell? found]
        refine here.exists_convert fun w part => ih (fun inner u leads => ?_) (a :: path)
        exact named _ u (leads.of_part found part)
    | native id =>
      obtain ⟨e, ran⟩ := Library.exists_native (named [] _ .self)
      exact ⟨_, Attempt.bind_eq_ok.2 ⟨e, ran, rfl⟩⟩
    | _ => exact ⟨_, rfl⟩

end

end Scriptlet
