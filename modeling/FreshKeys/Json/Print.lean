import FreshKeys.Json.Value

/-!
# Writing values as text

The text is compact: no blanks, members in their order. In a text value the quote, the backslash
and the control characters are escaped, those with a short escape by it, and everything else
stands for itself.
-/

namespace FreshKeys.Json

/-- A digit in base sixteen, lower case. -/
def hexDigit (n : Nat) : Char := Nat.digitChar (n % 16)

/-- How a character is written between quotes. -/
def escape (c : Char) : List Char :=
  if c = '"' then ['\\', '"']
  else if c = '\\' then ['\\', '\\']
  else if c = '\x08' then ['\\', 'b']
  else if c = '\x0c' then ['\\', 'f']
  else if c = '\n' then ['\\', 'n']
  else if c = '\r' then ['\\', 'r']
  else if c = '\t' then ['\\', 't']
  else if c.toNat < 0x20 then
    ['\\', 'u', '0', '0', hexDigit (c.toNat / 16), hexDigit c.toNat]
  else [c]

/-- A text between quotes. -/
def spellText (s : String) : List Char := '"' :: s.toList.flatMap escape ++ ['"']

/-- A number. -/
def spellNumber : Number → List Char
  | .int n => (toString n).toList
  | .float negative x => Decimal.signedText negative x

/-- Parts between two brackets, separated by commas. -/
def enclose (opening closing : Char) (parts : List (List Char)) : List Char :=
  opening :: [','].intercalate parts ++ [closing]

mutual

/-- The characters of a value. -/
def spell : Json → List Char
  | .null => ['n', 'u', 'l', 'l']
  | .bool true => ['t', 'r', 'u', 'e']
  | .bool false => ['f', 'a', 'l', 's', 'e']
  | .number n => spellNumber n
  | .text s => spellText s
  | .array items => enclose '[' ']' (spellItems items)
  | .object members => enclose '\x7b' '\x7d' (spellMembers members)

/-- The characters of each item. -/
def spellItems : List Json → List (List Char)
  | [] => []
  | item :: rest => item.spell :: spellItems rest

/-- The characters of each member. -/
def spellMembers : List (String × Json) → List (List Char)
  | [] => []
  | (key, value) :: rest => (spellText key ++ ':' :: value.spell) :: spellMembers rest

end

/-- The text of a value. -/
def print (value : Json) : String := String.ofList value.spell

end FreshKeys.Json
