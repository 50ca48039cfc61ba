/-!
# Blanks and trimming

A blank is a character with the Unicode property White_Space. Trimming removes characters of a
class from the ends of a text and never touches what stands between them.
-/

namespace FreshKeys.Text

/-- Whether a character has the Unicode property White_Space. -/
def isBlank (c : Char) : Bool :=
  let n := c.toNat
  (0x9 ≤ n && n ≤ 0xD) || n == 0x20 || n == 0x85 || n == 0xA0 || n == 0x1680 ||
    (0x2000 ≤ n && n ≤ 0x200A) || n == 0x2028 || n == 0x2029 || n == 0x202F || n == 0x205F ||
    n == 0x3000

/-- What remains of a list without its leading elements of a class. -/
def dropStart (p : Char → Bool) (s : List Char) : List Char := s.dropWhile p

/-- What remains of a list without its trailing elements of a class. -/
def dropEnd (p : Char → Bool) (s : List Char) : List Char := (s.reverse.dropWhile p).reverse

/-- What remains of a list without the elements of a class at either end. -/
def strip (p : Char → Bool) (s : List Char) : List Char := dropEnd p (dropStart p s)

/-- A text without the blanks at its ends. -/
def trim (s : String) : String := String.ofList (strip isBlank s.toList)

/-- Whether a character is the separator of path segments. -/
def isSlash (c : Char) : Bool := c == '/'

/-- A text without the slashes at its ends. -/
def trimSlashes (s : String) : String := String.ofList (strip isSlash s.toList)

/-- A text without the slashes at its start. -/
def trimSlashesStart (s : String) : String := String.ofList (dropStart isSlash s.toList)

/-- A text without the slashes at its end. -/
def trimSlashesEnd (s : String) : String := String.ofList (dropEnd isSlash s.toList)

/-- A trimmed text, as characters. -/
theorem toList_trim (s : String) : (trim s).toList = strip isBlank s.toList :=
  String.toList_ofList

/-- A text without the slashes at its ends, as characters. -/
theorem toList_trimSlashes (s : String) : (trimSlashes s).toList = strip isSlash s.toList :=
  String.toList_ofList

end FreshKeys.Text
