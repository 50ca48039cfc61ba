/-!
# Bytes as characters

Reading bytes as UTF-8 never fails here: a run of bytes that is part of no character becomes one
stray mark, and the caller decides what a stray mark means. A stray run is the longest start of a
character that the bytes spell before they break off.
-/

namespace FreshKeys.Text

/-- A character, or `none` for a run of bytes that is part of none. -/
abbrev Mark := Option Char

namespace Utf8

/-- Whether a byte may continue a character. -/
def isTail (b : UInt8) : Bool := 0x80 ≤ b && b ≤ 0xBF

/-- Whether a byte may come second after the given first byte of three or four. -/
def isSecond (first b : UInt8) : Bool :=
  if first == 0xE0 then 0xA0 ≤ b && b ≤ 0xBF
  else if first == 0xED then 0x80 ≤ b && b ≤ 0x9F
  else if first == 0xF0 then 0x90 ≤ b && b ≤ 0xBF
  else if first == 0xF4 then 0x80 ≤ b && b ≤ 0x8F
  else isTail b

/-- The character with the given bits, first byte's payload first, six bits a byte after it. -/
def assemble (payload : Nat) (tails : List UInt8) : Mark :=
  some (Char.ofNat (tails.foldl (fun n b => n * 64 + b.toNat % 64) payload))

/-- The first mark of nonempty bytes, and the bytes after it. -/
def next (b : UInt8) (rest : List UInt8) : Mark × List UInt8 :=
  if b < 0x80 then (some (Char.ofNat b.toNat), rest)
  else if 0xC2 ≤ b && b ≤ 0xDF then
    match rest with
    | c :: r => if isTail c then (assemble (b.toNat % 32) [c], r) else (none, rest)
    | [] => (none, [])
  else if 0xE0 ≤ b && b ≤ 0xEF then
    match rest with
    | c :: d :: r =>
      if !isSecond b c then (none, rest)
      else if isTail d then (assemble (b.toNat % 16) [c, d], r)
      else (none, d :: r)
    | [c] => if isSecond b c then (none, []) else (none, rest)
    | [] => (none, [])
  else if 0xF0 ≤ b && b ≤ 0xF4 then
    match rest with
    | c :: d :: e :: r =>
      if !isSecond b c then (none, rest)
      else if !isTail d then (none, d :: e :: r)
      else if isTail e then (assemble (b.toNat % 8) [c, d, e], r)
      else (none, e :: r)
    | [c, d] =>
      if !isSecond b c then (none, rest) else if isTail d then (none, []) else (none, [d])
    | [c] => if isSecond b c then (none, []) else (none, rest)
    | [] => (none, [])
  else (none, rest)

/-- What follows a mark is no longer than what follows its first byte. -/
theorem next_le (b : UInt8) (rest : List UInt8) : (next b rest).2.length ≤ rest.length := by
  unfold next
  repeat' split
  all_goals simp only [List.length_cons, List.length_nil]; omega

/-- The marks that bytes spell, in order. -/
def marks : List UInt8 → List Mark
  | [] => []
  | b :: rest => (next b rest).1 :: marks (next b rest).2
termination_by bytes => bytes.length
decreasing_by
  have := next_le b rest
  simp only [List.length_cons]
  omega

end Utf8

/-- The marks of a text: all of them characters. -/
def marksOf (s : String) : List Mark := s.toList.map some

/-- The text of bytes, with U+FFFD for each stray run. -/
def lossy (bytes : ByteArray) : String :=
  String.ofList ((Utf8.marks bytes.toList).map fun m => m.getD '\uFFFD')

end FreshKeys.Text
