import FreshKeys.Json.Token

/-!
# Documents as trees of nodes

A document is read as far as it goes. A node records what was written, in the order it was written,
and an array or object that the document breaks off is marked as not closed. Nothing here decides
whether a fault matters: a reader that walks a tree from the left meets the faults in the order of
the document, between everything else it may object to.
-/

namespace FreshKeys.Json

/-- A value as written. A number without a value is beyond the range of floats; a text without a
value holds half a surrogate pair or a stray byte. -/
inductive Node where
  | null
  | bool (value : Bool)
  | number (value : Option Number)
  | text (value : Option String)
  | array (items : List Node) (closed : Bool)
  | object (members : List (Option String × Node)) (closed : Bool)
  /-- No value starts here. -/
  | broken
  deriving Repr, Inhabited

namespace Node

/-- A member of an object as written. -/
abbrev Member := Option String × Node

/-- An array or object that is still open: what it holds so far, last first. -/
inductive Open where
  | array (items : List Node)
  | object (members : List Member)
  /-- An object with a key whose value is still to come. -/
  | member (members : List Member) (key : Option String)

/-- What may come next. -/
inductive Due where
  | value
  | itemOrEnd
  | commaOrEnd
  | keyOrEnd
  | key
  | colon

/-- An open array or object that ends here without being closed. -/
def Open.cutOff : Open → Node
  | .array items => .array items.reverse false
  | .object members => .object members.reverse false
  | .member members key => .object ((key, .broken) :: members).reverse false

/-- An open array or object that ends with a last value, without being closed. -/
def Open.cutOffAfter (last : Node) : Open → Node
  | .array items => .array (last :: items).reverse false
  | .object members => .object members.reverse false
  | .member members key => .object ((key, last) :: members).reverse false

/-- How far a document has been read. -/
inductive Progress where
  /-- Inside the open levels, innermost first. -/
  | inside (levels : List Open) (due : Due)
  /-- The value of the document is complete. -/
  | complete (root : Node)

namespace Progress

/-- Puts a finished value where it belongs. -/
def place (value : Node) : List Open → Option Progress
  | [] => some (.complete value)
  | .array items :: outer => some (.inside (.array (value :: items) :: outer) .commaOrEnd)
  | .member members key :: outer =>
    some (.inside (.object ((key, value) :: members) :: outer) .commaOrEnd)
  | .object _ :: _ => none

/-- Starts a value with a token. -/
def start (levels : List Open) : Token → Option Progress
  | .null => place .null levels
  | .bool b => place (.bool b) levels
  | .number n => place (.number n) levels
  | .text s => place (.text s) levels
  | .beginArray => some (.inside (.array [] :: levels) .itemOrEnd)
  | .beginObject => some (.inside (.object [] :: levels) .keyOrEnd)
  | _ => none

/-- Closes the innermost level with a closing token. -/
def close : List Open → Token → Option Progress
  | .array items :: outer, .endArray => place (.array items.reverse true) outer
  | .object members :: outer, .endObject => place (.object members.reverse true) outer
  | _, _ => none

/-- Goes on after a comma. -/
def afterComma : List Open → Option Progress
  | .array items :: outer => some (.inside (.array items :: outer) .value)
  | .object members :: outer => some (.inside (.object members :: outer) .key)
  | _ => none

/-- Takes the key of a member. -/
def takeKey : List Open → Token → Option Progress
  | .object members :: outer, .text key => some (.inside (.member members key :: outer) .colon)
  | _, _ => none

/-- Reads one token; none if it may not stand here. -/
def step : Progress → Token → Option Progress
  | .complete _, _ => none
  | .inside levels .value, t => start levels t
  | .inside levels .itemOrEnd, t => (close levels t).orElse fun _ => start levels t
  | .inside levels .commaOrEnd, .comma => afterComma levels
  | .inside levels .commaOrEnd, t => close levels t
  | .inside levels .keyOrEnd, t => (close levels t).orElse fun _ => takeKey levels t
  | .inside levels .key, t => takeKey levels t
  | .inside levels .colon, .colon => some (.inside levels .value)
  | .inside _ .colon, _ => none

/-- The tree of a document that breaks off here. -/
def tree : Progress → Node
  | .complete root => root
  | .inside [] _ => .broken
  | .inside (inner :: outer) _ => outer.foldl Open.cutOffAfter inner.cutOff

/-- Whether a document may end here. -/
def mayEnd : Progress → Bool
  | .complete _ => true
  | .inside _ _ => false

end Progress

/-- A document: the tree of its value, and whether the document ends properly after it. -/
structure Document where
  root : Node
  ended : Bool

/-- Reads tokens on from where a document stands. -/
def Document.build : Progress → List Token → Document
  | p, [] => ⟨p.tree, p.mayEnd⟩
  | p, t :: rest =>
    match p.step t with
    | some q => build q rest
    | none => ⟨p.tree, false⟩

/-- The document that tokens spell. -/
def Document.ofTokens (tokens : List Token) : Document := build (.inside [] .value) tokens

end Node

open FreshKeys.Text (Mark)

/-- The document that marks spell. -/
def Node.Document.ofMarks (s : List Mark) : Node.Document := .ofTokens (Token.scan s)

/-- The document of a text. -/
def Node.Document.ofText (s : String) : Node.Document := .ofMarks (Text.marksOf s)

/-- The document of bytes. -/
def Node.Document.ofBytes (bytes : ByteArray) : Node.Document :=
  .ofMarks (Text.Utf8.marks bytes.toList)

end FreshKeys.Json
