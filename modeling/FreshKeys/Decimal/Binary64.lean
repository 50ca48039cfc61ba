/-!
# Finite binary64 magnitudes

A magnitude is a significand below `2 ^ 53` times a power of two. Rounding is exact: a ratio of
natural numbers goes to the nearest magnitude, a tie to the even significand, and a ratio too large
for the format has no magnitude. Products and quotients round the exact result once.
-/

namespace FreshKeys.Decimal

/-- The finite magnitude `significand * 2 ^ exponent`. -/
structure Binary64 where
  significand : Nat
  exponent : Int
  deriving DecidableEq, Repr

/-- `num / den` rounded to the nearest natural number, a tie to the even one. -/
def roundDiv (num den : Nat) : Nat :=
  let q := num / den
  let r := num % den
  if den < 2 * r || (den == 2 * r && q % 2 == 1) then q + 1 else q

namespace Binary64

/-- The least exponent of the format. -/
def minExponent : Int := -1074

/-- The greatest exponent of the format. -/
def maxExponent : Int := 971

/-- The magnitude zero. -/
def zero : Binary64 := ⟨0, minExponent⟩

/-- Whether a magnitude is zero. -/
def isZero (x : Binary64) : Bool := x.significand == 0

/-- The ratio `num / den` in units of `2 ^ e`, as a ratio. -/
def inUnits (num den : Nat) (e : Int) : Nat × Nat :=
  if 0 ≤ e then (num, den * Nat.pow 2 e.toNat) else (num * Nat.pow 2 (-e).toNat, den)

/-- The exponent at which `num / den` has a significand of 53 bits, no less than the least. -/
def exponentOf (num den : Nat) : Int :=
  let guess : Int := (num.log2 : Int) - (den.log2 : Int) - 52
  let (n, d) := inUnits num den guess
  max minExponent (if n < d * Nat.pow 2 52 then guess - 1 else guess)

/-- The magnitude nearest to `num / den`, if the format reaches that far. -/
def nearest (num den : Nat) : Option Binary64 :=
  if num = 0 then some zero
  else
    let e := exponentOf num den
    let (n, d) := inUnits num den e
    let m := roundDiv n d
    let x : Binary64 := if m = Nat.pow 2 53 then ⟨Nat.pow 2 52, e + 1⟩ else ⟨m, e⟩
    if x.exponent ≤ maxExponent then some x else none

/-- The magnitude of `m * 2 ^ e / den`, rounded once. -/
def ofScaled (m : Nat) (e : Int) (den : Nat) : Option Binary64 :=
  if 0 ≤ e then nearest (m * Nat.pow 2 e.toNat) den else nearest m (den * Nat.pow 2 (-e).toNat)

/-- The product of two magnitudes. -/
def mul (x y : Binary64) : Option Binary64 :=
  ofScaled (x.significand * y.significand) (x.exponent + y.exponent) 1

/-- The quotient of two magnitudes, the second of them not zero. -/
def div (x y : Binary64) : Option Binary64 :=
  ofScaled x.significand (x.exponent - y.exponent) y.significand

/-- The magnitude nearest to a power of ten. -/
def powerOfTen (k : Nat) : Option Binary64 := nearest (Nat.pow 10 k) 1

/-- The greatest power of ten within the format. -/
def maxPowerOfTen : Nat := 308

/-- The magnitude of `x * 10 ^ e`: one rounded step by a power of ten for each 308 digits. A scale
of more than twice that many digits below the point leaves nothing. -/
def scale (x : Binary64) (e : Int) : Option Binary64 :=
  let top : Int := maxPowerOfTen
  if x.isZero then some zero
  else if top < e then none
  else if 0 ≤ e then (powerOfTen e.toNat).bind (mul x)
  else if -top ≤ e then (powerOfTen (-e).toNat).bind (div x)
  else if -(2 * top) ≤ e then do
    let y ← (powerOfTen maxPowerOfTen).bind (div x)
    (powerOfTen (-e - top).toNat).bind (div y)
  else some zero

end Binary64

end FreshKeys.Decimal
