import Scriptlet.Text.Quoted

/-!
# Quoted text ends by itself

Quoted text may hold anything, quotes and escapes included, and yet it says by itself where it ends: a quote inside it
always follows a backslash, and no escape begins with another one. So if two quoted texts stand at the beginning of the
same characters, they are quotes of the same string and the same characters follow them.
-/

namespace Scriptlet.Text

/-! ## Runs of characters -/

/-- A run of characters of some class ends before the first character that is not of the class. -/
theorem run_append_inj {p : Char → Bool} {run run' rest rest' : List Char} (inside : ∀ c ∈ run, p c = true)
    (inside' : ∀ c ∈ run', p c = true) (outside : ∀ c ∈ rest.head?, p c = false)
    (outside' : ∀ c ∈ rest'.head?, p c = false) (same : run ++ rest = run' ++ rest') : run = run' ∧ rest = rest' := by
  induction run generalizing run' with
  | nil =>
    cases run' with
    | nil => exact ⟨rfl, same⟩
    | cons c run' =>
      have first := outside c (by simp [show rest = c :: (run' ++ rest') from same])
      rw [inside' c List.mem_cons_self] at first
      cases first
  | cons c run ih =>
    cases run' with
    | nil =>
      have first := outside' c (by simp [show rest' = c :: (run ++ rest) from same.symm])
      rw [inside c List.mem_cons_self] at first
      cases first
    | cons d run' =>
      obtain ⟨rfl, later⟩ := List.cons.inj same
      obtain ⟨rfl, rfl⟩ := ih (fun e he => inside e (List.mem_cons_of_mem c he))
        (fun e he => inside' e (List.mem_cons_of_mem c he)) later
      exact ⟨rfl, rfl⟩

/-! ## Hexadecimal digits -/

theorem digitChar_inj : ∀ m < 16, ∀ n < 16, Nat.digitChar m = Nat.digitChar n → m = n := by
  decide

theorem toDigits_inj {m n : Nat} (same : Nat.toDigits 16 m = Nat.toDigits 16 n) : m = n := by
  induction m using Nat.strongRecOn generalizing n with
  | ind m ih =>
    -- A number has one digit exactly if it is small; otherwise its last digit can be taken off.
    rw [Nat.toDigits_eq_if (by decide), Nat.toDigits_eq_if (n := n) (by decide)] at same
    split at same <;> rename_i hm <;> split at same <;> rename_i hn
    · exact digitChar_inj m hm n hn (List.singleton_inj.1 same)
    · exact absurd (congrArg List.length same) (by simp)
    · exact absurd (congrArg List.length same) (by simp)
    · obtain ⟨front, last⟩ := List.append_inj' same rfl
      have quotient := ih (m / 16) (by omega) front
      have remainder := digitChar_inj (m % 16) (by omega) (n % 16) (by omega) (List.singleton_inj.1 last)
      omega

theorem ne_brace_of_mem_toDigits {n : Nat} {c : Char} (digit : c ∈ Nat.toDigits 16 n) : c ≠ '\x7d' := by
  have small : ∀ k < 16, Nat.digitChar k ≠ '\x7d' := by decide
  induction n using Nat.strongRecOn with
  | ind n ih =>
    rw [Nat.toDigits_eq_if (by decide)] at digit
    split at digit
    · rename_i hn
      rw [List.mem_singleton.1 digit]
      exact small n hn
    · obtain front | last := List.mem_append.1 digit
      · exact ih (n / 16) (by omega) front
      · rw [List.mem_singleton.1 last]
        exact small (n % 16) (by omega)

/-! ## Escapes -/

/-- The characters with a short escape, and the letter after the backslash. -/
def shortEscapes : List (Char × Char) :=
  [('\x00', '0'), ('\t', 't'), ('\r', 'r'), ('\n', 'n'), ('"', '"'), ('\\', '\\')]

/-- The ways in which a character can be written between the quotes. -/
inductive Written : Char → List Char → Prop where
  | short {c letter : Char} (listed : (c, letter) ∈ shortEscapes) : Written c ['\\', letter]
  | codePoint (c : Char) : Written c (codePointEscape c)
  | itself {c : Char} (quote : c ≠ '"') (backslash : c ≠ '\\') : Written c [c]

theorem written_escapeChar (c : Char) : Written c (escapeChar c) := by
  unfold escapeChar
  split
  · exact .short (by simp_all [shortEscapes])
  split
  · exact .short (by simp_all [shortEscapes])
  split
  · exact .short (by simp_all [shortEscapes])
  split
  · exact .short (by simp_all [shortEscapes])
  split
  · exact .short (by simp_all [shortEscapes])
  split
  · exact .short (by simp_all [shortEscapes])
  split
  · exact .codePoint c
  · exact .itself ‹_› ‹_›

theorem codePointEscape_append_inj {c d : Char} {rest rest' : List Char}
    (same : codePointEscape c ++ rest = codePointEscape d ++ rest') : c = d ∧ rest = rest' := by
  simp only [codePointEscape, List.cons_append, List.append_assoc, List.cons.injEq, true_and,
    List.nil_append] at same
  have inside (c : Char) : ∀ e ∈ Nat.toDigits 16 c.toNat, (e != '\x7d') = true := fun e he => by
    simpa using ne_brace_of_mem_toDigits he
  obtain ⟨digits, rest⟩ := run_append_inj (inside c) (inside d) (by simp) (by simp) same
  exact ⟨Char.toNat_inj.1 (toDigits_inj digits), (List.cons.inj rest).2⟩

/-- What is written for a character says where it ends and which character it is. -/
theorem Written.append_inj {c d : Char} {out out' rest rest' : List Char} (written : Written c out)
    (written' : Written d out') (same : out ++ rest = out' ++ rest') : c = d ∧ rest = rest' := by
  have letters : ∀ e ∈ shortEscapes, ∀ f ∈ shortEscapes, e.2 = f.2 → e.1 = f.1 := by decide
  have no_u : ∀ e ∈ shortEscapes, e.2 ≠ 'u' := by decide
  cases written with
  | short listed =>
    cases written' with
    | short listed' =>
      obtain ⟨-, same⟩ := List.cons.inj same
      obtain ⟨letter, rest⟩ := List.cons.inj same
      exact ⟨letters _ listed _ listed' letter, rest⟩
    | codePoint =>
      obtain ⟨-, same⟩ := List.cons.inj same
      exact absurd (List.cons.inj same).1 (no_u _ listed)
    | itself _ backslash => exact absurd (List.cons.inj same).1.symm backslash
  | codePoint =>
    cases written' with
    | short listed' =>
      obtain ⟨-, same⟩ := List.cons.inj same
      exact absurd (List.cons.inj same).1.symm (no_u _ listed')
    | codePoint => exact codePointEscape_append_inj same
    | itself _ backslash => exact absurd (List.cons.inj same).1.symm backslash
  | itself _ backslash =>
    cases written' with
    | itself => exact List.cons.inj same
    | _ => exact absurd (List.cons.inj same).1 backslash

/-- No character is written with a quote first. -/
theorem Written.ne_quote {c : Char} {out rest rest' : List Char} (written : Written c out) :
    out ++ rest ≠ '"' :: rest' := by
  intro same
  cases written with
  | itself quote => exact quote (List.cons.inj same).1
  | _ => exact absurd (List.cons.inj same).1 (by decide)

/-! ## Quoted strings -/

theorem quoteChars_append_inj {s t rest rest' : List Char} (same : quoteChars s ++ rest = quoteChars t ++ rest') :
    s = t ∧ rest = rest' := by
  have body : s.flatMap escapeChar ++ '"' :: rest = t.flatMap escapeChar ++ '"' :: rest' := by
    simpa [quoteChars] using same
  clear same
  induction s generalizing t with
  | nil =>
    cases t with
    | nil => exact ⟨rfl, (List.cons.inj body).2⟩
    | cons d t =>
      rw [List.flatMap_cons, List.append_assoc] at body
      exact absurd body.symm (written_escapeChar d).ne_quote
  | cons c s ih =>
    rw [List.flatMap_cons, List.append_assoc] at body
    cases t with
    | nil => exact absurd body (written_escapeChar c).ne_quote
    | cons d t =>
      rw [List.flatMap_cons, List.append_assoc] at body
      obtain ⟨rfl, later⟩ := (written_escapeChar c).append_inj (written_escapeChar d) body
      obtain ⟨rfl, rfl⟩ := ih later
      exact ⟨rfl, rfl⟩

end Scriptlet.Text
