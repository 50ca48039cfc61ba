import FreshKeys.Text.Pieces
import FreshKeys.Text.Quoted
import FreshKeys.Text.Utf8

/-!
# Hosts

The host of an address is a domain name in ASCII, four numbers that make an IPv4 address, or an
IPv6 address in brackets. Each has one normal form: names are in lower case, IPv4 addresses are
four decimal numbers, and IPv6 addresses leave out the longest run of zero groups.
-/

namespace FreshKeys.Store.Host

open FreshKeys.Text (pieces)

/-- Whether a character separates the parts of a name. -/
def isDot (c : Char) : Bool := c == '.'

/-- Whether a character separates the groups of an IPv6 address. -/
def isColon (c : Char) : Bool := c == ':'

/-- The value of a digit in base sixteen. -/
def hexValue? (c : Char) : Option Nat :=
  if '0' ≤ c ∧ c ≤ '9' then some (c.toNat - '0'.toNat)
  else if 'a' ≤ c ∧ c ≤ 'f' then some (c.toNat - 'a'.toNat + 10)
  else if 'A' ≤ c ∧ c ≤ 'F' then some (c.toNat - 'A'.toNat + 10)
  else none

/-- The number that digits spell in a base up to sixteen; nothing spells zero. -/
def number? (base : Nat) (digits : List Char) : Option Nat :=
  digits.foldlM
    (fun n c => (hexValue? c).bind fun d => if d < base then some (n * base + d) else none) 0

/-- A part of an IPv4 address: decimal, octal after a zero, or hexadecimal after `0x`. -/
def ipv4Part? : List Char → Option Nat
  | [] => none
  | '0' :: 'x' :: digits | '0' :: 'X' :: digits => number? 16 digits
  | '0' :: d :: digits => number? 8 (d :: digits)
  | digits => number? 10 digits

/-- The parts of a name, without the empty one after a last dot. -/
def parts (name : List Char) : List (List Char) :=
  let all := pieces isDot name
  if 1 < all.length && all.getLast? == some [] then all.dropLast else all

/-- Whether a name ends in a number and so has to be an IPv4 address. -/
def endsInNumber (name : List Char) : Bool :=
  match (parts name).getLast? with
  | none | some [] => false
  | some last => last.all Char.isDigit || (ipv4Part? last).isSome

/-- The address that numbers make: one byte each, the last one filling what is left. -/
def ipv4OfParts? (numbers : List Nat) : Option Nat :=
  match numbers.reverse with
  | [] => none
  | last :: firsts =>
    let n := numbers.length
    if 4 < n || firsts.any (255 < ·) || Nat.pow 256 (5 - n) ≤ last then none
    else some (firsts.reverse.foldl (fun a b => a * 256 + b) 0 * Nat.pow 256 (5 - n) + last)

/-- An IPv4 address as four numbers. -/
def printIpv4 (address : Nat) : String :=
  ".".intercalate ([3, 2, 1, 0].map fun i => toString (address / Nat.pow 256 i % 256))

/-- The IPv4 address that a name spells. -/
def ipv4? (name : List Char) : Option Nat := ((parts name).mapM ipv4Part?).bind ipv4OfParts?

/-- One group of an IPv6 address. -/
def group? (digits : List Char) : Option Nat :=
  if digits.isEmpty || 4 < digits.length then none else number? 16 digits

/-- Four plain decimal numbers at the end of an IPv6 address, as two groups. -/
def embedded? (text : List Char) : Option (List Nat) := do
  let numbers ← (pieces isDot text).mapM fun digits =>
    if digits.isEmpty || (1 < digits.length && digits.head? == some '0') then none
    else (number? 10 digits).bind fun n => if n ≤ 255 then some n else none
  match numbers with
  | [a, b, c, d] => some [a * 256 + b, c * 256 + d]
  | _ => none

/-- The groups of one side of an IPv6 address; only the last part of its end may be decimal. -/
def groups? (isEnd : Bool) (text : List Char) : Option (List Nat) :=
  if text.isEmpty then some []
  else
    let all := pieces isColon text
    let last := all.getLast?.getD []
    if isEnd && last.contains '.' then do
      let firsts ← all.dropLast.mapM group?
      let rest ← embedded? last
      some (firsts ++ rest)
    else all.mapM group?

/-- The text before two colons in a row, and the text after them. -/
def gap? : List Char → Option (List Char × List Char)
  | [] => none
  | ':' :: ':' :: rest => some ([], rest)
  | c :: rest => (gap? rest).map fun (before, after) => (c :: before, after)

/-- The eight groups of an IPv6 address; two colons stand for at least one zero group. -/
def ipv6? (text : List Char) : Option (List Nat) :=
  match gap? text with
  | some (before, after) => do
    let left ← groups? false before
    let right ← groups? true after
    if 7 < left.length + right.length then none
    some (left ++ List.replicate (8 - left.length - right.length) 0 ++ right)
  | none => (groups? true text).bind fun groups => if groups.length == 8 then some groups else none

/-- How many zeros a list starts with. -/
def zeros (groups : List Nat) : Nat := (groups.takeWhile (· == 0)).length

/-- Where the first longest run of zeros starts, and its length. -/
def longestRun (groups : List Nat) : Nat × Nat :=
  (List.range groups.length).foldl
    (fun best i =>
      let here := zeros (groups.drop i)
      if best.2 < here then (i, here) else best) (0, 0)

/-- Groups between colons. -/
def printGroups (groups : List Nat) : String :=
  ":".intercalate (groups.map fun g => String.ofList (Text.hex g))

/-- An IPv6 address in brackets. -/
def printIpv6 (groups : List Nat) : String :=
  let (start, length) := longestRun groups
  if length < 2 then "[" ++ printGroups groups ++ "]"
  else
    "[" ++ printGroups (groups.take start) ++ "::" ++ printGroups (groups.drop (start + length)) ++
      "]"

/-- Whether a character may not stand in a name that a request is sent to. Double quotes, backticks
and braces may stand in names, but not on the wire. -/
def isForbidden (c : Char) : Bool :=
  c.toNat ≤ 0x20 || 0x7F ≤ c.toNat || "\"#%/:<>?@[\\]^`\x7b|\x7d".toList.contains c

/-- The bytes of a text with its percent signs decoded. -/
def decodePercent : List Char → List UInt8
  | '%' :: a :: b :: rest =>
    match hexValue? a, hexValue? b with
    | some high, some low => UInt8.ofNat (high * 16 + low) :: decodePercent rest
    | _, _ => UInt8.ofNat '%'.toNat :: decodePercent (a :: b :: rest)
  | c :: rest => (String.singleton c).toUTF8.toList ++ decodePercent rest
  | [] => []

/-- The name that a text spells, in lower case. -/
def name? (text : List Char) : Option (List Char) := do
  let name ← (Text.Utf8.marks (decodePercent text)).mapM id
  let lower := name.map Char.toLower
  if lower.isEmpty || lower.any isForbidden then none else some lower

/-- The normal form of a host, if the text is one. -/
def normalize? (text : List Char) : Option String :=
  match text with
  | '[' :: rest =>
    if rest.getLast? == some ']' then (ipv6? rest.dropLast).map printIpv6 else none
  | _ => do
    let name ← name? text
    if endsInNumber name then (ipv4? name).map printIpv4 else some (String.ofList name)

end FreshKeys.Store.Host
