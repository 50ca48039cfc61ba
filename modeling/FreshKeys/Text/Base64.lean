/-!
# Base64

Four digits stand for three bytes. Blanks may stand anywhere. The padding may be left out; where it
stands, it fills the last group of four. Bits of the last digit that belong to no byte are dropped.
-/

namespace FreshKeys.Text.Base64

/-- The byte of a padding character. -/
def pad : UInt8 := 0x3D

/-- Whether a byte is a blank: a space, or one from tab to carriage return. -/
def isBlank (b : UInt8) : Bool := b == 0x20 || (0x09 ≤ b && b ≤ 0x0D)

/-- The value of a digit in base 64. -/
def digit? (b : UInt8) : Option Nat :=
  let c := Char.ofNat b.toNat
  if 'A' ≤ c ∧ c ≤ 'Z' then some (c.toNat - 'A'.toNat)
  else if 'a' ≤ c ∧ c ≤ 'z' then some (c.toNat - 'a'.toNat + 26)
  else if '0' ≤ c ∧ c ≤ '9' then some (c.toNat - '0'.toNat + 52)
  else if c = '+' then some 62
  else if c = '/' then some 63
  else none

/-- The bytes of digits, four digits to three bytes; a single digit left over is no byte. -/
def bytes? : List Nat → Option (List UInt8)
  | [] => some []
  | [_] => none
  | [a, b] => some [UInt8.ofNat (a * 4 + b / 16)]
  | [a, b, c] => some [UInt8.ofNat (a * 4 + b / 16), UInt8.ofNat (b % 16 * 16 + c / 4)]
  | a :: b :: c :: d :: rest =>
    (bytes? rest).map fun tail =>
      UInt8.ofNat (a * 4 + b / 16) :: UInt8.ofNat (b % 16 * 16 + c / 4) ::
        UInt8.ofNat (c % 4 * 64 + d) :: tail

/-- Whether padding is as it may be after some digits: absent, or one or two characters that fill
the last group. -/
def isPadding (digits : Nat) (padding : List UInt8) : Bool :=
  padding.isEmpty ||
    (padding.all (· == pad) && padding.length ≤ 2 && (digits + padding.length) % 4 == 0)

/-- The bytes of a base64 text. -/
def decode? (text : List UInt8) : Option (List UInt8) :=
  let written := text.filter fun b => !isBlank b
  let digits := written.takeWhile (· != pad)
  if isPadding digits.length (written.drop digits.length) then
    (digits.mapM digit?).bind bytes?
  else none

end FreshKeys.Text.Base64
