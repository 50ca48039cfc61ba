import FreshKeys.Store.Host
import FreshKeys.Text.Blank

/-!
# Addresses of requests

The text of an address is read the way browsers read it. Tabs and line breaks vanish, controls and
spaces at the ends fall away, backslashes count as slashes, a port is left out when it is the
scheme's own, `.` and `..` segments are resolved, characters that a path may not hold are
percent-encoded, and the fragment is dropped. A percent sign is kept as it is.
-/

namespace FreshKeys.Store

/-- The address of a request. -/
structure Url where
  secure : Bool
  host : String
  /-- The port, if it is not the one of the scheme. -/
  port : Option Nat
  /-- The segments of the path, at least one. -/
  segments : List String
  query : Option String
  deriving DecidableEq, Repr

namespace Url

/-- The name of the scheme. -/
def scheme (url : Url) : String := if url.secure then "https" else "http"

/-- The port of a scheme. -/
def ownPort (secure : Bool) : Nat := if secure then 443 else 80

/-- The path with its slashes. -/
def path (url : Url) : String := String.join (url.segments.map fun s => "/" ++ s)

/-- The address as it is requested. -/
def print (url : Url) : String :=
  url.scheme ++ "://" ++ url.host ++ (url.port.elim "" fun p => ":" ++ toString p) ++ url.path ++
    url.query.elim "" fun q => "?" ++ q

/-- Whether a character falls away at the ends. -/
def isEdge (c : Char) : Bool := c.toNat ≤ 0x20

/-- Whether a character vanishes everywhere. -/
def isBreak (c : Char) : Bool := c == '\t' || c == '\n' || c == '\r'

/-- Whether a character separates segments. -/
def isSeparator (c : Char) : Bool := c == '/' || c == '\\'

/-- Whether a character ends the path. -/
def endsPath (c : Char) : Bool := c == '?' || c == '#'

/-- A byte after a percent sign, in upper case. -/
def encodeByte (b : UInt8) : List Char :=
  ['%', (Nat.digitChar (b.toNat / 16)).toUpper, (Nat.digitChar (b.toNat % 16)).toUpper]

/-- A text with the characters of a class percent-encoded, those outside ASCII always. -/
def encode (p : Char → Bool) (text : List Char) : List Char :=
  text.flatMap fun c =>
    if c.toNat < 0x20 || 0x7F ≤ c.toNat || p c then
      (String.singleton c).toUTF8.toList.flatMap encodeByte
    else [c]

/-- Whether a character is encoded in a path. -/
def isCodedInPath (c : Char) : Bool := " \"#<>?^`\x7b\x7d".toList.contains c

/-- Whether a character is encoded in a query. -/
def isCodedInQuery (c : Char) : Bool := " \"#<>'".toList.contains c

/-- The spellings of a segment that stays where it is. -/
def sameSpellings : List (List Char) := [['.'], ['%', '2', 'e']]

/-- The spellings of a segment that goes one level up. -/
def upSpellings : List (List Char) := sameSpellings.flatMap fun a => sameSpellings.map (a ++ ·)

/-- Puts the segments of a path in order: the resolved ones are given last first. -/
def resolve : List (List Char) → List (List Char) → List (List Char)
  | done, [] => done.reverse
  | done, segment :: rest =>
    let lower := segment.map Char.toLower
    let kept := if upSpellings.contains lower then done.tail else done
    if upSpellings.contains lower || sameSpellings.contains lower then
      resolve (if rest.isEmpty then [] :: kept else kept) rest
    else resolve (segment :: kept) rest

/-- The segments of a path as written, which starts with a separator or is empty. -/
def segmentsOf (path : List Char) : List String :=
  (resolve [] (Text.pieces isSeparator path.tail)).map fun s =>
    String.ofList (encode isCodedInPath s)

/-- The port that a text gives: none if it is empty, and no text at all is also fine. -/
def port? (secure : Bool) (digits : List Char) : Option (Option Nat) :=
  if !digits.all Char.isDigit then none
  else if digits.isEmpty then some none
  else
    let n := (Host.number? 10 digits).getD 0
    if 65535 < n then none else some (if n == ownPort secure then none else some n)

/-- The host and the port in an authority: the port follows a colon outside of brackets. -/
def splitPort (authority : List Char) : List Char × List Char :=
  match authority with
  | '[' :: _ =>
    let (host, rest) := authority.span (· != ']')
    (host ++ rest.take 1, rest.drop 1)
  | _ => authority.span (· != ':')

/-- An authority without what stands before its last `@`. -/
def dropUser (authority : List Char) : List Char :=
  (authority.reverse.takeWhile (· != '@')).reverse

/-- The address of a text without the scheme. -/
def afterScheme? (secure : Bool) (text : List Char) : Option Url := do
  let (authority, rest) :=
    (text.dropWhile isSeparator).span fun c => !isSeparator c && !endsPath c
  let (hostText, portText) := splitPort (dropUser authority)
  let host ← Host.normalize? hostText
  let port ←
    match portText with
    | [] => some none
    | ':' :: digits => port? secure digits
    | _ => none
  let (pathText, rest) := rest.span fun c => !endsPath c
  let query :=
    match rest with
    | '?' :: more => some (String.ofList (encode isCodedInQuery (more.takeWhile (· != '#'))))
    | _ => none
  some ⟨secure, host, port, segmentsOf pathText, query⟩

/-- The address that a text spells, if it does. -/
def parse? (text : String) : Option Url :=
  let clean := (Text.strip isEdge text.toList).filter fun c => !isBreak c
  match clean.span (· != ':') with
  | (scheme, _ :: rest) =>
    let lower := scheme.map Char.toLower
    if lower == "http".toList then afterScheme? false rest
    else if lower == "https".toList then afterScheme? true rest
    else none
  | (_, []) => none

end Url

end FreshKeys.Store
