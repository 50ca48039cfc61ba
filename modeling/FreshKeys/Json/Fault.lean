import FreshKeys.Decimal.Shortest
import FreshKeys.Json.Node
import FreshKeys.Text.Quoted

/-!
# Why a document is not what was asked for

Either the text breaks the rules of JSON at the place that was reached, or it keeps them there and
says something else than was expected.
-/

namespace FreshKeys.Json

/-- What stands where something else was expected. -/
inductive Found where
  | null
  | bool (value : Bool)
  | number (value : Number)
  | text (value : String)
  | sequence
  | map
  deriving Repr, DecidableEq

/-- Why a document was refused. -/
inductive Fault where
  /-- The text is no JSON from here on. -/
  | malformed
  | wrongType (found : Found) (expected : String)
  | wrongValue (found : Found) (expected : String)
  | wrongLength (length : Nat) (expected : String)
  | missingField (name : String)
  | duplicateField (name : String)
  deriving Repr, DecidableEq

/-- How what was found is named. -/
def Found.describe : Found → String
  | .null => "null"
  | .bool b => "boolean `" ++ (if b then "true" else "false") ++ "`"
  | .number (.int n) => "integer `" ++ toString n ++ "`"
  | .number (.float negative x) =>
    "floating point `" ++ String.ofList (Decimal.signedText negative x) ++ "`"
  | .text s => "string " ++ Text.quote s
  | .sequence => "sequence"
  | .map => "map"

/-- The message of a fault; a malformed text has none. -/
def Fault.message? : Fault → Option String
  | .malformed => none
  | .wrongType found expected =>
    some ("invalid type: " ++ found.describe ++ ", expected " ++ expected)
  | .wrongValue found expected =>
    some ("invalid value: " ++ found.describe ++ ", expected " ++ expected)
  | .wrongLength n expected => some ("invalid length " ++ toString n ++ ", expected " ++ expected)
  | .missingField name => some ("missing field `" ++ name ++ "`")
  | .duplicateField name => some ("duplicate field `" ++ name ++ "`")

/-- The fault of a node that is not of the expected type. An array or object is refused where it
opens, whatever it holds; anything else has to be readable first. -/
def Node.mismatch (expected : String) : Node → Fault
  | .null => .wrongType .null expected
  | .bool b => .wrongType (.bool b) expected
  | .number (some n) => .wrongType (.number n) expected
  | .text (some s) => .wrongType (.text s) expected
  | .array _ _ => .wrongType .sequence expected
  | .object _ _ => .wrongType .map expected
  | .number none | .text none | .broken => .malformed

end FreshKeys.Json
