/-!
# Text in columns

Padding with spaces to a given width, counted in characters. Longer text is never cut.
-/

namespace Scriptlet.Text

/-- A run of spaces. -/
def spaces (n : Nat) : String :=
  String.ofList (List.replicate n ' ')

/-- Fills up with spaces on the right. -/
def padRight (width : Nat) (s : String) : String :=
  s ++ spaces (width - s.length)

/-- Fills up with spaces on the left. -/
def padLeft (width : Nat) (s : String) : String :=
  spaces (width - s.length) ++ s

end Scriptlet.Text
