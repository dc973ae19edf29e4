import Scriptlet.Text.Extending
import Scriptlet.Text.Printable

/-!
# Quoted text

How a string is shown inside other text: between double quotes, with a backslash before a quote or a
backslash, short escapes for NUL, tab, carriage return and line feed, and the code point in lower-case
hexadecimal for every other character that cannot be shown by itself.
-/

namespace Scriptlet.Text

/-- A character given by its code point, such as `\u{301}`. -/
def codePointEscape (c : Char) : List Char :=
  '\\' :: 'u' :: '\x7b' :: Nat.toDigits 16 c.toNat ++ ['\x7d']

/-- The characters that stand for `c` between the quotes. -/
def escapeChar (c : Char) : List Char :=
  if c = '\x00' then ['\\', '0']
  else if c = '\t' then ['\\', 't']
  else if c = '\r' then ['\\', 'r']
  else if c = '\n' then ['\\', 'n']
  else if c = '"' then ['\\', '"']
  else if c = '\\' then ['\\', '\\']
  else if isExtending c || !isPrintable c then codePointEscape c
  else [c]

/-- The quoted form of a string, as a list of characters. -/
def quoteChars (s : List Char) : List Char :=
  '"' :: s.flatMap escapeChar ++ ['"']

/-- The quoted form of a string. -/
def quote (s : String) : String :=
  String.ofList (quoteChars s.toList)

end Scriptlet.Text
