import Scriptlet.Proofs.BindingRules

/-!
# Parameters that take their defaults

If binding has a result, the arguments were taken by the rules and the defaults that are needed are there, however many
defaults there are. So a parameter with a default for which a call gives no argument is bound to the default that
belongs to it, in both ways of binding arguments.
-/

namespace Scriptlet.Code

open Call (Args Filling)

variable {callee : String} {defaults : List Value} {args : Args}

namespace Signature

variable {s : Signature} {h h' : Heap} {bindings : List (String × Value)}

/-- What is bound directly is bound in the general way, too. -/
theorem bindFully_of_bind (hb : s.bind callee defaults args h = .ok bindings h') :
    s.bindFully callee defaults args h = .ok bindings h' := by
  unfold bind at hb
  split at hb
  · rename_i direct
    obtain ⟨only, none⟩ := Bool.and_eq_true_iff.1 direct
    obtain ⟨given, keywords⟩ := args
    obtain rfl : keywords = [] := List.isEmpty_iff.1 none
    have enough : s.defaulted ≤ defaults.length := by
      obtain ⟨ran, -⟩ := Heap.inspect_eq_ok.1 hb
      by_contra few
      simp only [bindPositional, Nat.not_le.1 few, if_true] at ran
      split at ran
      · cases ran
      · split at ran <;> cases ran
    rw [bindFully_eq_bindPositional only enough]
    exact hb
  · exact hb

theorem names_collectInto {collector : Option String} {c : Heap.Cell} {es : List (String × Value)}
    (made : collectInto collector c h = .ok es h') : es.map Prod.fst = collector.toList := by
  cases collector with
  | none =>
    cases made
    rfl
  | some x =>
    obtain ⟨a, h₁, -, made⟩ := bind_eq_ok.1 made
    cases made
    rfl

/-- What the general way binds: the named parameters, and the collectors. -/
theorem bindFully_eq_ok (hb : s.bindFully callee defaults args h = .ok bindings h') :
    ∃ named collected, s.settle callee defaults args = .ok (named, collected) ∧ (∀ e ∈ named, e ∈ bindings) ∧
      ∀ e ∈ bindings, e ∈ named ∨ e.1 ∈ s.rest.toList ∨ e.1 ∈ s.keywords.toList := by
  unfold bindFully at hb
  obtain ⟨⟨named, collected⟩, h₁, looked, more⟩ := bind_eq_ok.1 hb
  obtain ⟨hsettle, -⟩ := Heap.inspect_eq_ok.1 looked
  simp only [List.splitAt_eq] at more
  obtain ⟨rest, h₂, hrest, more⟩ := bind_eq_ok.1 more
  obtain ⟨keywords, h₃, hkeywords, more⟩ := bind_eq_ok.1 more
  cases more
  have split (e : String × Value) :
      e ∈ named ↔ e ∈ named.take s.positional.length ∨ e ∈ named.drop s.positional.length := by
    rw [← List.mem_append, List.take_append_drop]
  refine ⟨named, collected, hsettle, fun e he => ?_, fun e he => ?_⟩
  · simp only [List.mem_append]
    rcases (split e).1 he with he | he
    · exact .inl (.inl (.inl he))
    · exact .inl (.inr he)
  · simp only [List.mem_append] at he
    rcases he with ((he | he) | he) | he
    · exact .inl ((split e).2 (.inl he))
    · exact .inr (.inl (names_collectInto hrest ▸ List.mem_map_of_mem he))
    · exact .inl ((split e).2 (.inr he))
    · exact .inr (.inr (names_collectInto hkeywords ▸ List.mem_map_of_mem he))

/-- The names of the collectors are not those of other parameters. -/
theorem not_mem_collectors (distinct : s.names.Nodup) {x : String} (hx : x ∈ s.named.map Prod.fst) :
    x ∉ s.rest.toList ∧ x ∉ s.keywords.toList := by
  rw [map_fst_named] at hx
  have once := List.nodup_iff_count_le_one.1 distinct x
  have here := List.count_pos_iff.2 hx
  simp only [names, List.count_append] at once here
  rw [← List.count_eq_zero, ← List.count_eq_zero]
  omega

end Signature

namespace ParamGroups

variable {g : ParamGroups}

/-- If the parameters were filled, they were filled by the rules. -/
theorem filled_of_fill (distinct : (g.singles.map Prod.fst).Nodup) {f : Filling}
    (ran : (Signature.ofGroups g).fill callee args = .ok f) : g.Filled args args.keywords f := by
  by_cases overfull : g.Overfull args
  · rw [fill_of_overfull overfull] at ran
    cases ran
  obtain takes | ⟨earlier, x, v, later, cause, split, takes, refuses⟩ := g.takes_or_refuses callee args args.keywords
  · obtain ⟨f', ran', filled⟩ := foldlM_of_takes takes distinct (filled_start args distinct)
    rw [fill_of_room overfull, ran'] at ran
    cases ran
    exact filled
  · rw [fill_of_refuses distinct overfull split takes refuses] at ran
    cases ran

/-- If the parameters were settled, each got its argument, or else its default, which is there. -/
theorem named_of_settle (distinct : (g.singles.map Prod.fst).Nodup) (last : DefaultsLast g.positional)
    {named collected : List (String × Value)}
    (ran : (Signature.ofGroups g).settle callee defaults args = .ok (named, collected)) :
    named = (g.singles.filterMap fun p => (g.value? defaults args p.1).map (p.1, ·)) ∧
      ∀ x k, (x, some k) ∈ (Signature.ofGroups g).named → g.argument? args args.keywords x = none →
        k < defaults.length := by
  unfold Signature.settle at ran
  obtain ⟨f, fills, ran⟩ := Attempt.bind_eq_ok.1 ran
  obtain ⟨es, completes, ran⟩ := Attempt.bind_eq_ok.1 ran
  obtain rfl : es = named := by
    split at ran
    · cases ran
      rfl
    · cases ran
  have filled := filled_of_fill distinct fills
  obtain ⟨values, there⟩ := Signature.complete_eq_ok.1 completes
  refine ⟨values.trans (values_of_filled filled last distinct), fun x k hx unsupplied => ?_⟩
  rw [Signature.named_ofGroups last] at there hx
  rw [filled.slots] at there
  have slots := zip_numberDefaults 0 g.singles fun y => g.argument? args args.keywords y
  exact there ((x, some k), none) (slots ▸ List.mem_map.2 ⟨_, hx, by rw [unsupplied]⟩) rfl k rfl

open Program (Supplied paramDefaults) in
/-- A parameter with a default for which a call gives no argument is bound to the value at the place of its
default. -/
theorem bind_default {params : List Program.Param} (sorts : g.Sorts params) {h h' : Heap}
    {bindings : List (String × Value)} (hb : (Signature.ofGroups g).bind callee defaults args h = .ok bindings h')
    {k : Nat} {x : String} {e : Program.Expr} (hk : (paramDefaults params)[k]? = some (x, e))
    (hx : ¬ Supplied params args x) : ∃ v, defaults[k]? = some v ∧ (OrderedMap.ofList bindings).find? x = some v := by
  obtain ⟨i, hi⟩ := sorts.named_of_default hk
  have place := List.mem_of_getElem? hi
  obtain ⟨noPosition, noKeyword⟩ := not_or.1 hx
  have distinct : (g.singles.map Prod.fst).Nodup := map_fst_named_ofGroups g ▸ sorts.nodup_named
  have unsupplied : g.argument? args args.keywords x = none := by
    refine argument?_eq_none_iff.2 ⟨fun given => noPosition ?_, noKeyword⟩
    obtain ⟨⟨_, v⟩, there, rfl⟩ := List.mem_map.1 given
    obtain ⟨j, hj⟩ := List.mem_iff_getElem?.1 there
    obtain ⟨name, argument⟩ := List.getElem?_zip_eq_some.1 hj
    refine ⟨j, (List.getElem?_eq_some_iff.1 argument).1, ?_⟩
    rw [← List.getElem?_map, ← sorts.positional_ofGroups]
    exact name
  obtain ⟨named, collected, settled, sub, parts⟩ := Signature.bindFully_eq_ok (Signature.bindFully_of_bind hb)
  obtain ⟨rfl, there⟩ := named_of_settle distinct sorts.last settled
  obtain ⟨v, found⟩ : ∃ v, defaults[k]? = some v := ⟨_, List.getElem?_eq_getElem (there x k place unsupplied)⟩
  have value : g.value? defaults args x = some v := by
    rw [value?, unsupplied, Option.none_or, ← found]
    exact (lookup_default distinct (Signature.named_ofGroups sorts.last ▸ place)).symm
  obtain ⟨p, hp, rfl⟩ := List.mem_map.1 (map_fst_named_ofGroups g ▸ List.mem_map_of_mem (f := Prod.fst) place)
  refine ⟨v, found, OrderedMap.find?_ofList (sub _ (List.mem_filterMap.2 ⟨p, hp, by rw [value]; rfl⟩)) fun u hu => ?_⟩
  have names : (Signature.ofGroups g).names.Nodup := names_ofGroups g ▸ sorts.nodup
  obtain ⟨notRest, notKeywords⟩ := Signature.not_mem_collectors names (List.mem_map_of_mem place)
  rcases parts _ hu with hu | hu | hu
  · obtain ⟨q, -, hq⟩ := List.mem_filterMap.1 hu
    obtain ⟨w, hw, same⟩ := Option.map_eq_some_iff.1 hq
    obtain ⟨name, rfl⟩ := Prod.mk.inj same
    rw [name, value] at hw
    exact (Option.some.inj hw).symm
  · exact absurd hu notRest
  · exact absurd hu notKeywords

end ParamGroups

end Scriptlet.Code
