import Scriptlet.Data.OrderedMap

/-!
# The lexicon

A module knows every name and every literal string that it has met, each of them once. Words are never
forgotten.
-/

namespace Scriptlet.Code

/-- The words a module has met. -/
structure Lexicon where
  entries : OrderedMap String Unit := .empty
  deriving DecidableEq, Inhabited

namespace Lexicon

/-- The words, in the order in which they were met. -/
def words (l : Lexicon) : List String := l.entries.keys

/-- Adds a word unless it is known. -/
def learn (l : Lexicon) (w : String) : Lexicon := ⟨l.entries.insert w ()⟩

/-- The number of words. -/
def size (l : Lexicon) : Nat := l.entries.size

theorem size_eq (l : Lexicon) : l.size = l.words.length := by
  simp [size, words, OrderedMap.keys, OrderedMap.length_entries]

theorem nodup_words (l : Lexicon) : l.words.Nodup := l.entries.nodup_keys

theorem words_learn (l : Lexicon) (w : String) : (l.learn w).words = if w ∈ l.words then l.words else l.words ++ [w] :=
  l.entries.keys_insert w ()

theorem mem_learn (l : Lexicon) (w : String) : w ∈ (l.learn w).words := by
  rw [words_learn]
  split <;> simp_all

theorem prefix_learn (l : Lexicon) (w : String) : l.words <+: (l.learn w).words := by
  rw [words_learn]
  split
  · exact List.prefix_refl _
  · exact List.prefix_append _ _

end Lexicon

end Scriptlet.Code
