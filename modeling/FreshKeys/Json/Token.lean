import FreshKeys.Json.Literal

/-!
# Tokens of a JSON document

Scanning turns marks into tokens, blanks between them dropped. It stops at the first place that no
token can start at or that breaks a token off, and marks the place with a `broken` token, so all
that stands before a fault can still be read. A text that holds half a surrogate pair or a stray
byte, and a number beyond the range of floats, are tokens without a value: what they mean depends
on whether anyone asks for the value.
-/

namespace FreshKeys.Json

open FreshKeys.Text (Mark)

/-- A token of a document. -/
inductive Token where
  | beginArray
  | endArray
  | beginObject
  | endObject
  | comma
  | colon
  | null
  | bool (value : Bool)
  | number (value : Option Number)
  | text (value : Option String)
  | broken
  deriving Repr

namespace Token

/-- Whether a character may stand between tokens. -/
def isSpace (c : Char) : Bool := c == ' ' || c == '\t' || c == '\n' || c == '\r'

/-- Whether a mark may stand between tokens. -/
def isGap (m : Mark) : Bool := m.any isSpace

/-- A piece of a text between its quotes. -/
inductive Piece where
  | char (c : Char)
  /-- An escaped half of a surrogate pair. -/
  | half (unit : Nat)
  | stray
  deriving Repr

/-- The value of a digit in base sixteen. -/
def hexDigit? (m : Mark) : Option Nat :=
  m.bind fun c =>
    if '0' ≤ c ∧ c ≤ '9' then some (c.toNat - '0'.toNat)
    else if 'a' ≤ c ∧ c ≤ 'f' then some (c.toNat - 'a'.toNat + 10)
    else if 'A' ≤ c ∧ c ≤ 'F' then some (c.toNat - 'A'.toNat + 10)
    else none

/-- The number of four digits in base sixteen. -/
def unit? (a b c d : Mark) : Option Nat := do
  let a ← hexDigit? a
  let b ← hexDigit? b
  let c ← hexDigit? c
  let d ← hexDigit? d
  some (((a * 16 + b) * 16 + c) * 16 + d)

/-- Whether a unit is the first half of a surrogate pair. -/
def isHigh (unit : Nat) : Bool := 0xD800 ≤ unit && unit < 0xDC00

/-- Whether a unit is the second half of a surrogate pair. -/
def isLow (unit : Nat) : Bool := 0xDC00 ≤ unit && unit < 0xE000

/-- The piece that an escaped unit stands for. -/
def pieceOfUnit (unit : Nat) : Piece :=
  if isHigh unit || isLow unit then .half unit else .char (Char.ofNat unit)

/-- The character after a backslash that stands for one character. -/
def simpleEscape? (m : Mark) : Option Char :=
  match m with
  | some '"' => some '"'
  | some '\\' => some '\\'
  | some '/' => some '/'
  | some 'b' => some '\x08'
  | some 'f' => some '\x0c'
  | some 'n' => some '\n'
  | some 'r' => some '\r'
  | some 't' => some '\t'
  | _ => none

/-- The pieces up to the closing quote, after those already read (last first), and what follows the
quote. -/
def pieces : List Piece → List Mark → Option (List Piece × List Mark)
  | _, [] => none
  | done, none :: rest => pieces (.stray :: done) rest
  | done, some '"' :: rest => some (done.reverse, rest)
  | done, some '\\' :: some 'u' :: a :: b :: c :: d :: rest =>
    match unit? a b c d with
    | some unit => pieces (pieceOfUnit unit :: done) rest
    | none => none
  | done, some '\\' :: m :: rest =>
    match simpleEscape? m with
    | some c => pieces (.char c :: done) rest
    | none => none
  | _, [some '\\'] => none
  | done, some c :: rest => if c.toNat < 0x20 then none else pieces (.char c :: done) rest

/-- The characters of pieces, the halves of a pair joined; none if a half stands alone or a stray
byte is among them. -/
def join : List Piece → Option (List Char)
  | [] => some []
  | .char c :: rest => (join rest).map (c :: ·)
  | .half high :: .half low :: rest =>
    if isHigh high && isLow low then
      (join rest).map (Char.ofNat (0x10000 + (high - 0xD800) * 0x400 + (low - 0xDC00)) :: ·)
    else none
  | .half _ :: _ => none
  | .stray :: _ => none

/-- What follows an exact word at the start. -/
def after : List Char → List Mark → Option (List Mark)
  | [], rest => some rest
  | c :: word, some d :: rest => if c = d then after word rest else none
  | _ :: _, _ => none

/-- The token at the start, and what follows it. -/
def next : List Mark → Option (Token × List Mark)
  | some '[' :: rest => some (.beginArray, rest)
  | some ']' :: rest => some (.endArray, rest)
  | some '\x7b' :: rest => some (.beginObject, rest)
  | some '\x7d' :: rest => some (.endObject, rest)
  | some ',' :: rest => some (.comma, rest)
  | some ':' :: rest => some (.colon, rest)
  | some '"' :: rest => (pieces [] rest).map fun (ps, tail) =>
      (.text ((join ps).map String.ofList), tail)
  | some 'n' :: rest => (after ['u', 'l', 'l'] rest).map fun tail => (.null, tail)
  | some 't' :: rest => (after ['r', 'u', 'e'] rest).map fun tail => (.bool true, tail)
  | some 'f' :: rest => (after ['a', 'l', 's', 'e'] rest).map fun tail => (.bool false, tail)
  | s => (Literal.scan s).map fun (l, tail) => (.number l.number?, tail)

/-- The closing quote takes up one mark at least. -/
theorem pieces_length {done ps : List Piece} {s rest : List Mark}
    (h : pieces done s = some (ps, rest)) : rest.length < s.length := by
  fun_induction pieces done s with
  | case1 | case5 | case7 | case8 | case9 => cases h
  | case3 done tail =>
    obtain ⟨-, rfl⟩ := Prod.mk.inj (Option.some.inj h)
    exact Nat.lt_succ_self tail.length
  | case2 | case4 | case6 | case10 =>
    rename_i ih
    have := ih h
    simp only [List.length_cons]
    omega

/-- What follows a word is no longer than what the word stands in. -/
theorem after_length {word : List Char} {s rest : List Mark} (h : after word s = some rest) :
    rest.length ≤ s.length := by
  fun_induction after word s with
  | case1 s => exact Nat.le_of_eq (congrArg List.length (Option.some.inj h).symm)
  | case2 word c tail ih => exact Nat.le_trans (ih h) (Nat.le_succ tail.length)
  | case3 => cases h
  | case4 => cases h

/-- A token takes up at least one mark. -/
theorem next_length {s rest : List Mark} {t : Token} (h : next s = some (t, rest)) :
    rest.length < s.length := by
  unfold next at h
  split at h
  case h_7 =>
    obtain ⟨⟨ps, tail⟩, hp, he⟩ := Option.map_eq_some_iff.1 h
    have := pieces_length hp
    simp only [Prod.mk.injEq] at he
    obtain ⟨_, rfl⟩ := he
    simp only [List.length_cons]; omega
  case h_11 =>
    obtain ⟨⟨l, tail⟩, hl, he⟩ := Option.map_eq_some_iff.1 h
    simp only [Prod.mk.injEq] at he
    obtain ⟨_, rfl⟩ := he
    exact Literal.scan_length hl
  case h_8 | h_9 | h_10 =>
    obtain ⟨tail, ha, he⟩ := Option.map_eq_some_iff.1 h
    have := after_length ha
    simp only [Prod.mk.injEq] at he
    obtain ⟨_, rfl⟩ := he
    simp only [List.length_cons]; omega
  all_goals
    simp only [Option.some.injEq, Prod.mk.injEq] at h
    obtain ⟨_, rfl⟩ := h
    simp

/-- The tokens of a document, up to the first fault. -/
def scan (s : List Mark) : List Token :=
  match _hs : s.dropWhile isGap with
  | [] => []
  | m :: rest =>
    match _hn : next (m :: rest) with
    | none => [.broken]
    | some (t, tail) => t :: scan tail
termination_by s.length
decreasing_by
  have h₁ := next_length _hn
  have h₂ := (s.dropWhile_sublist isGap).length_le
  rw [_hs] at h₂
  omega

end Token

end FreshKeys.Json
