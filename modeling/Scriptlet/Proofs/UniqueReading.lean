import Std.Data.String.ToInt
import Scriptlet.Object.Text
import Scriptlet.Proofs.QuotedText

/-!
# Representations are unambiguous

Different simple data have different representations. The representation of an object inside a container is followed by
more text, so what is proved is that it says by itself where it ends: its first character tells the type, brackets and
quotes are closed, and an integer ends where something follows that no integer and no other representation begins with,
as commas, colons and closing brackets do.
-/

namespace Scriptlet

/-! ## Integers -/

namespace Integer

/-- The characters of integers. -/
def isNumeral (c : Char) : Bool := c.isDigit || c == '-'

theorem isNumeral_of_mem_text {n : Integer} {c : Char} (mem : c ∈ n.text.toList) : isNumeral c = true := by
  have digit {k : Nat} (mem : c ∈ Nat.toDigits 10 k) : isNumeral c = true := by
    simp [isNumeral, Nat.isDigit_of_mem_toDigits (by decide) (by decide) mem]
  rw [text, Int.toString_eq_repr, Int.repr_eq_if] at mem
  split at mem
  · rw [Nat.repr_eq_ofList_toDigits, String.toList_ofList] at mem
    exact digit mem
  · obtain sign | mem := List.mem_append.1 (String.toList_append ▸ mem)
    · rw [List.mem_singleton.1 sign]
      rfl
    · rw [Nat.repr_eq_ofList_toDigits, String.toList_ofList] at mem
      exact digit mem

theorem text_toList_ne_nil (n : Integer) : n.text.toList ≠ [] := by
  rw [text, Int.toString_eq_repr, Int.repr_eq_if]
  split <;> simp [Nat.repr_eq_ofList_toDigits]

theorem text_inj {m n : Integer} (same : m.text = n.text) : m = n := by
  rw [text, text, Int.toString_eq_repr, Int.toString_eq_repr] at same
  exact Int64.toInt_inj.1 (Int.repr_injective same)

end Integer

namespace Object

/-! ## Simple data -/

/-- Objects that are made of none, truth values, integers, strings, lists, tuples and dictionaries. -/
inductive Simple : Object → Prop where
  | none : Simple .none
  | bool (b : Bool) : Simple (.bool b)
  | int (n : Integer) : Simple (.int n)
  | string (s : String) : Simple (.string s)
  | list {items : List Object} (simple : ∀ o ∈ items, Simple o) : Simple (.list items)
  | tuple {items : List Object} (simple : ∀ o ∈ items, Simple o) : Simple (.tuple items)
  | dict {pairs : List (Object × Object)} (keys : ∀ e ∈ pairs, Simple e.1) (values : ∀ e ∈ pairs, Simple e.2) :
      Simple (.dict pairs)

/-! ## The characters of a representation -/

/-- The representation as a list of characters. -/
def chars (o : Object) : List Char := o.repr.toList

/-- The characters of an entry of a dictionary. -/
def entryChars (e : Object × Object) : List Char := e.1.chars ++ ':' :: ' ' :: e.2.chars

/-- Pieces of text with a comma and a space between any two of them. -/
def separated (pieces : List (List Char)) : List Char := [',', ' '].intercalate pieces

theorem toList_intercalate_reprs (items : List Object) :
    (String.intercalate ", " (reprs items)).toList = separated (items.map chars) := by
  have reprs_eq : reprs items = items.map repr := by
    induction items with
    | nil => rfl
    | cons o items ih => rw [reprs, ih, List.map_cons]
  rw [String.toList_intercalate, reprs_eq, List.map_map]
  rfl

theorem chars_list (items : List Object) :
    (Object.list items).chars = '[' :: (separated (items.map chars) ++ [']']) := by
  simp only [chars, repr, String.toList_append, toList_intercalate_reprs]
  rfl

theorem chars_tuple (items : List Object) : (Object.tuple items).chars =
    '(' :: (separated (items.map chars) ++ if items.length = 1 then [',', ')'] else [')']) := by
  simp only [chars, repr, String.toList_append, toList_intercalate_reprs]
  split <;> simp

theorem chars_dict (pairs : List (Object × Object)) :
    (Object.dict pairs).chars = '\x7b' :: (separated (pairs.map entryChars) ++ ['\x7d']) := by
  have pairReprs_eq : pairReprs pairs = pairs.map fun e => e.1.repr ++ ": " ++ e.2.repr := by
    induction pairs with
    | nil => rfl
    | cons e pairs ih => rw [pairReprs, ih, List.map_cons]
  have entries : (pairs.map fun e => e.1.repr ++ ": " ++ e.2.repr).map String.toList = pairs.map entryChars := by
    simp [entryChars, chars]
  simp [chars, repr, pairReprs_eq, String.toList_intercalate, entries, separated]

theorem chars_string (s : String) : (Object.string s).chars = Text.quoteChars s.toList := by
  simp [chars, repr, Text.quote]

/-! ## The first character -/

/-- The type of the simple data whose representations begin with a character. -/
def typeStarting? (c : Char) : Option String :=
  if Integer.isNumeral c then some "int"
  else if c = 'N' then some "NoneType"
  else if c = 'T' ∨ c = 'F' then some "bool"
  else if c = '"' then some "string"
  else if c = '[' then some "list"
  else if c = '(' then some "tuple"
  else if c = '\x7b' then some "dict"
  else Option.none

theorem Simple.exists_start {x : Object} (simple : x.Simple) :
    ∃ c rest, x.chars = c :: rest ∧ typeStarting? c = some x.typeName := by
  cases simple with
  | none => exact ⟨'N', _, rfl, by decide⟩
  | bool b =>
    cases b with
    | true => exact ⟨'T', _, rfl, by decide⟩
    | false => exact ⟨'F', _, rfl, by decide⟩
  | int n =>
    obtain ⟨c, rest, start⟩ := List.exists_cons_of_ne_nil n.text_toList_ne_nil
    have numeral : Integer.isNumeral c = true := Integer.isNumeral_of_mem_text (n := n) (by simp [start])
    exact ⟨c, rest, start, if_pos numeral⟩
  | string s => exact ⟨'"', _, chars_string s, rfl⟩
  | list _ => exact ⟨'[', _, chars_list _, rfl⟩
  | tuple _ => exact ⟨'(', _, chars_tuple _, rfl⟩
  | dict _ _ => exact ⟨'\x7b', _, chars_dict _, rfl⟩

/-- The first character tells the type. -/
theorem typeName_eq {x y : Object} {rest rest' : List Char} (simple : x.Simple) (simple' : y.Simple)
    (same : x.chars ++ rest = y.chars ++ rest') : x.typeName = y.typeName := by
  obtain ⟨c, more, start, type⟩ := simple.exists_start
  obtain ⟨d, more', start', type'⟩ := simple'.exists_start
  rw [start, start', List.cons_append, List.cons_append] at same
  obtain ⟨rfl, -⟩ := List.cons.inj same
  exact Option.some.inj (type.symm.trans type')

/-- The text does not begin as a representation does. -/
def Stops (rest : List Char) : Prop := ∀ c ∈ rest.head?, typeStarting? c = Option.none

theorem stops_cons {c : Char} (rest : List Char) (other : typeStarting? c = Option.none) : Stops (c :: rest) := by
  rintro d hd
  rw [← Option.some.inj hd]
  exact other

theorem Stops.not_numeral {rest : List Char} (stops : Stops rest) : ∀ c ∈ rest.head?, Integer.isNumeral c = false := by
  intro c hc
  have other := stops c hc
  unfold typeStarting? at other
  split at other
  · cases other
  · exact eq_false_of_ne_true ‹_›

theorem not_stops (x : Object) (rest : List Char) (simple : x.Simple) : ¬ Stops (x.chars ++ rest) := by
  obtain ⟨c, more, start, type⟩ := simple.exists_start
  intro stops
  have other := stops c (by simp [start])
  rw [type] at other
  cases other

/-! ## Sequences between brackets -/

/-- Whatever follows it, as long as it does not begin as a representation, the text of `a` says where it ends and that
it is the text of `a` and of nothing else of its kind. -/
def EndsItself {α : Type} (kind : α → Prop) (text : α → List Char) (a : α) : Prop :=
  ∀ ⦃b : α⦄ ⦃rest rest' : List Char⦄, kind b → Stops rest → Stops rest' → text a ++ rest = text b ++ rest' →
    a = b ∧ rest = rest'

/-- The text ends a sequence: nothing begins here, and no other piece follows. -/
structure Closes (rest : List Char) : Prop where
  stops : Stops rest
  last : ¬ [',', ' '] <+: rest

section Sequences

variable {α : Type} {kind : α → Prop} {text : α → List Char} {as bs : List α} {rest rest' : List Char}

/-- The text of further elements of a sequence. -/
def further (text : α → List Char) (as : List α) : List Char := as.flatMap fun a => ',' :: ' ' :: text a

theorem separated_cons (text : α → List Char) (a : α) (as : List α) :
    separated ((a :: as).map text) = text a ++ further text as := by
  induction as generalizing a with
  | nil => simp [separated, further]
  | cons b as ih =>
    have later : separated ((a :: b :: as).map text) = text a ++ ',' :: ' ' :: separated ((b :: as).map text) := by
      simp [separated, List.intercalate_cons_cons]
    rw [later, ih]
    simp [further]

theorem stops_further (as : List α) (closes : Closes rest) : Stops (further text as ++ rest) := by
  cases as with
  | nil => exact closes.stops
  | cons a as => exact stops_cons _ (by decide)

theorem further_append_inj (ends : ∀ a ∈ as, EndsItself kind text a) (kinds : ∀ b ∈ bs, kind b)
    (closes : Closes rest) (closes' : Closes rest') (same : further text as ++ rest = further text bs ++ rest') :
    as = bs ∧ rest = rest' := by
  induction as generalizing bs with
  | nil =>
    cases bs with
    | nil => exact ⟨rfl, same⟩
    | cons b bs => exact absurd ⟨_, same.symm⟩ closes.last
  | cons a as ih =>
    cases bs with
    | nil => exact absurd ⟨_, same⟩ closes'.last
    | cons b bs =>
      have pieces : text a ++ (further text as ++ rest) = text b ++ (further text bs ++ rest') := by
        simpa [further] using same
      obtain ⟨rfl, later⟩ := ends a List.mem_cons_self (kinds b List.mem_cons_self) (stops_further as closes)
        (stops_further bs closes') pieces
      obtain ⟨rfl, rfl⟩ := ih (fun c hc => ends c (List.mem_cons_of_mem a hc))
        (fun c hc => kinds c (List.mem_cons_of_mem a hc)) later
      exact ⟨rfl, rfl⟩

/-- A sequence says where it ends and what its elements are. -/
theorem separated_append_inj (starts : ∀ a more, kind a → ¬ Stops (text a ++ more)) (kinds : ∀ a ∈ as, kind a)
    (kinds' : ∀ b ∈ bs, kind b) (ends : ∀ a ∈ as, EndsItself kind text a) (closes : Closes rest)
    (closes' : Closes rest') (same : separated (as.map text) ++ rest = separated (bs.map text) ++ rest') :
    as = bs ∧ rest = rest' := by
  cases as with
  | nil =>
    cases bs with
    | nil => exact ⟨rfl, same⟩
    | cons b bs =>
      rw [separated_cons, List.append_assoc] at same
      have begins := starts b (further text bs ++ rest') (kinds' b List.mem_cons_self)
      rw [← same] at begins
      exact absurd closes.stops begins
  | cons a as =>
    cases bs with
    | nil =>
      rw [separated_cons, List.append_assoc] at same
      have begins := starts a (further text as ++ rest) (kinds a List.mem_cons_self)
      rw [same] at begins
      exact absurd closes'.stops begins
    | cons b bs =>
      rw [separated_cons, separated_cons] at same
      refine further_append_inj ends kinds' closes closes' ?_
      simpa [further] using same

end Sequences

theorem closes_bracket {c : Char} (rest : List Char) (other : typeStarting? c = Option.none) (comma : c ≠ ',') :
    Closes (c :: rest) :=
  ⟨stops_cons rest other, fun first => comma (List.cons_prefix_cons.1 first).1.symm⟩

theorem closes_tuple (items : List Object) (rest : List Char) :
    Closes ((if items.length = 1 then [',', ')'] else [')']) ++ rest) := by
  split
  · exact ⟨stops_cons _ (by decide), by simp⟩
  · exact closes_bracket rest (by decide) (by decide)

/-! ## Objects -/

/-- An entry of a dictionary with a simple key and a simple value. -/
def SimpleEntry (e : Object × Object) : Prop := e.1.Simple ∧ e.2.Simple

theorem not_stops_entry (e : Object × Object) (rest : List Char) (simple : SimpleEntry e) :
    ¬ Stops (entryChars e ++ rest) := by
  rw [entryChars, List.append_assoc]
  exact not_stops e.1 _ simple.1

/-- An entry says where it ends if its key and its value do. -/
theorem endsItself_entry {e : Object × Object} (key : EndsItself Simple chars e.1)
    (value : EndsItself Simple chars e.2) : EndsItself SimpleEntry entryChars e := by
  intro f rest rest' simple stops stops' same
  simp only [entryChars, List.append_assoc, List.cons_append] at same
  obtain ⟨keys, later⟩ := key simple.1 (stops_cons _ (by decide)) (stops_cons _ (by decide)) same
  obtain ⟨values, rests⟩ := value simple.2 stops stops' (List.cons.inj (List.cons.inj later).2).2
  exact ⟨Prod.ext keys values, rests⟩

/-- By induction on the data: the first character leaves one type for the other object, and the parts end by themselves. -/
theorem Simple.endsItself {x : Object} (simple : x.Simple) : EndsItself Simple chars x := by
  induction simple with
  | none =>
    intro y rest rest' simple' _ _ same
    have type := typeName_eq .none simple' same
    cases simple' with
    | none => exact ⟨rfl, List.append_cancel_left same⟩
    | _ => simp [typeName] at type
  | bool b =>
    intro y rest rest' simple' _ _ same
    have type := typeName_eq (.bool b) simple' same
    cases simple' with
    | bool c =>
      cases b <;> cases c <;> simp_all [chars, repr]
    | _ => simp [typeName] at type
  | int n =>
    intro y rest rest' simple' stops stops' same
    have type := typeName_eq (.int n) simple' same
    cases simple' with
    | int m =>
      obtain ⟨texts, rests⟩ := Text.run_append_inj (fun c => Integer.isNumeral_of_mem_text)
        (fun c => Integer.isNumeral_of_mem_text) stops.not_numeral stops'.not_numeral same
      exact ⟨congrArg Object.int (Integer.text_inj (String.toList_inj.1 texts)), rests⟩
    | _ => simp [typeName] at type
  | string s =>
    intro y rest rest' simple' _ _ same
    have type := typeName_eq (.string s) simple' same
    cases simple' with
    | string t =>
      rw [chars_string, chars_string] at same
      obtain ⟨texts, rests⟩ := Text.quoteChars_append_inj same
      exact ⟨congrArg Object.string (String.toList_inj.1 texts), rests⟩
    | _ => simp [typeName] at type
  | list simple ih =>
    intro y rest rest' simple' _ _ same
    have type := typeName_eq (.list simple) simple' same
    cases simple' with
    | list simples =>
      simp only [chars_list, List.cons_append, List.append_assoc, List.cons.injEq, true_and] at same
      obtain ⟨rfl, brackets⟩ := separated_append_inj not_stops simple simples ih
        (closes_bracket rest (by decide) (by decide)) (closes_bracket rest' (by decide) (by decide)) same
      exact ⟨rfl, (List.cons.inj brackets).2⟩
    | _ => simp [typeName] at type
  | tuple simple ih =>
    intro y rest rest' simple' _ _ same
    have type := typeName_eq (.tuple simple) simple' same
    cases simple' with
    | tuple simples =>
      simp only [chars_tuple, List.cons_append, List.append_assoc, List.cons.injEq, true_and] at same
      obtain ⟨rfl, brackets⟩ := separated_append_inj not_stops simple simples ih
        (closes_tuple _ rest) (closes_tuple _ rest') same
      exact ⟨rfl, List.append_cancel_left brackets⟩
    | _ => simp [typeName] at type
  | dict keys values ihk ihv =>
    intro y rest rest' simple' _ _ same
    have type := typeName_eq (.dict keys values) simple' same
    cases simple' with
    | dict keys' values' =>
      simp only [chars_dict, List.cons_append, List.append_assoc, List.cons.injEq, true_and] at same
      obtain ⟨rfl, brackets⟩ := separated_append_inj not_stops_entry (fun e he => ⟨keys e he, values e he⟩)
        (fun e he => ⟨keys' e he, values' e he⟩) (fun e he => endsItself_entry (ihk e he) (ihv e he))
        (closes_bracket rest (by decide) (by decide)) (closes_bracket rest' (by decide) (by decide)) same
      exact ⟨rfl, (List.cons.inj brackets).2⟩
    | _ => simp [typeName] at type

/-- Objects made of none, truth values, integers, strings, lists, tuples and dictionaries have the same representation
only if they are the same. -/
theorem repr_unambiguous {x y : Object} (simple : x.Simple) (simple' : y.Simple) : x.repr = y.repr ↔ x = y := by
  constructor
  · intro same
    have chars_eq : x.chars ++ [] = y.chars ++ [] := by rw [chars, chars, same]
    exact (simple.endsItself simple' (by simp [Stops]) (by simp [Stops]) chars_eq).1
  · rintro rfl
    rfl

/-- A string that holds what would stand between two strings. -/
theorem repr_unambiguous_separator :
    let x : Object := .list [.string "a\", \"b", .tuple [.int (-1)]]
    let y : Object := .list [.string "a", .string "b", .tuple [.int (-1)]]
    x.Simple ∧ y.Simple ∧ x.repr ≠ y.repr := by
  intro x y
  have pair : (Object.tuple [.int (-1)]).Simple := .tuple (by simp [Simple.int])
  have simple : x.Simple := .list (by simp [Simple.string, pair])
  have simple' : y.Simple := .list (by simp [Simple.string, pair])
  exact ⟨simple, simple', fun same => absurd ((repr_unambiguous simple simple').1 same) (by decide +kernel)⟩

end Object

end Scriptlet
