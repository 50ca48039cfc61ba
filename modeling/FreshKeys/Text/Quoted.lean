import FreshKeys.Text.Printable

/-!
# Quoted texts

A quoted text stands between double quotes, shows every visible character as itself, and writes
the rest as escapes: `\"`, `\\`, `\n`, `\r`, `\t`, `\0`, and `\u` with the code point in braces.
Single quotes are shown as they are.
-/

namespace FreshKeys.Text

/-- The digits of a number in base sixteen, lower case. -/
def hex (n : Nat) : List Char := Nat.toDigits 16 n

/-- How one character is written between the quotes. -/
def escape (c : Char) : List Char :=
  if c = '"' then ['\\', '"']
  else if c = '\\' then ['\\', '\\']
  else if c = '\n' then ['\\', 'n']
  else if c = '\r' then ['\\', 'r']
  else if c = '\t' then ['\\', 't']
  else if c = '\x00' then ['\\', '0']
  else if isShown c then [c]
  else '\\' :: 'u' :: '\x7b' :: hex c.toNat ++ ['\x7d']

/-- A text between double quotes, escaped. -/
def quote (s : String) : String := String.ofList ('"' :: s.toList.flatMap escape ++ ['"'])

/-- Texts between brackets, each quoted, separated by commas. -/
def quoteAll (texts : List String) : String := "[" ++ ", ".intercalate (texts.map quote) ++ "]"

end FreshKeys.Text
