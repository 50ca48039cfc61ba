import FreshKeys.Decimal.Binary64

/-!
# The shortest decimal text of a magnitude

Of all decimals that read back as a given magnitude, the text shows one with the fewest digits, and
of those the nearest. A decimal reads back when it lies between the midpoints to the neighbouring
magnitudes; the midpoints themselves count when the significand is even.
-/

namespace FreshKeys.Decimal

/-- The decimal `digits * 10 ^ exponent`. -/
structure Scientific where
  digits : Nat
  exponent : Int
  deriving DecidableEq, Repr

namespace Binary64

/-- Four times the magnitude, in units of `2 ^ (exponent - 2)`, with the midpoints around it. -/
def bounds (x : Binary64) : Nat × Nat × Nat :=
  let v := 4 * x.significand
  let narrow := x.significand == Nat.pow 2 52 && minExponent < x.exponent
  (if narrow then v - 1 else v - 2, v, v + 2)

/-- The decimals `floor` and `floor + 1` around the magnitude on the grid `10 ^ q`, those that read
back only, with twice their distance from it. -/
def onGrid (x : Binary64) (q : Int) : List (Nat × Nat) :=
  let (low, v, high) := x.bounds
  let e := x.exponent - 2
  -- both sides are scaled to whole numbers: `d * 10 ^ q` against `b * 2 ^ e`
  let unit := Nat.pow 2 e.toNat * Nat.pow 10 (-q).toNat
  let step := Nat.pow 10 q.toNat * Nat.pow 2 (-e).toNat
  let floor := v * unit / step
  [floor, floor + 1].filterMap fun d =>
    let point := d * step
    let inside :=
      if x.significand % 2 == 0 then low * unit ≤ point && point ≤ high * unit
      else low * unit < point && point < high * unit
    if d != 0 && inside then
      some (d, if point ≤ v * unit then v * unit - point else point - v * unit)
    else none

/-- The nearest decimal that reads back on one grid, if there is one; a tie goes to the even. -/
def bestOnGrid (x : Binary64) (q : Int) : Option Nat :=
  match x.onGrid q with
  | [] => none
  | [(d, _)] => some d
  | (d, near) :: (d', near') :: _ =>
    if near < near' then some d
    else if near' < near then some d'
    else some (if d % 2 == 0 then d else d')

/-- The coarsest grid that any magnitude needs. -/
def coarsest : Nat := 308

/-- The number of grids from the coarsest to the finest that any magnitude needs. -/
def grids : Nat := coarsest + 324 + 1

/-- The shortest decimal that reads back as the magnitude. -/
def shortest (x : Binary64) : Scientific :=
  if x.isZero then ⟨0, 0⟩
  else
    ((List.range grids).findSome? fun (k : Nat) =>
      let q : Int := (coarsest : Int) - (k : Int)
      (x.bestOnGrid q).map fun d => (⟨d, q⟩ : Scientific)).getD ⟨0, 0⟩

end Binary64

/-- Where a decimal text changes to an exponent. -/
structure Layout where
  /-- The least exponent of the first digit that is written positionally. -/
  least : Int
  /-- The greatest exponent of the first digit that is written positionally. -/
  greatest : Int

/-- A JSON number has at least one digit after its point unless it has an exponent; the exponent
has a sign, and is written from seventeen whole digits or five zeros after the point on. -/
def jsonLayout : Layout := ⟨-5, 15⟩

/-- A decimal as text. -/
def Scientific.text (layout : Layout) (d : Scientific) : List Char :=
  let digits := Nat.toDigits 10 d.digits
  let first : Int := d.exponent + digits.length - 1
  if d.digits == 0 then ['0', '.', '0']
  else if first < layout.least || layout.greatest < first then
    let tail := if digits.length == 1 then [] else '.' :: digits.drop 1
    let sign := if first < 0 then '-' else '+'
    digits.take 1 ++ tail ++ 'e' :: sign :: Nat.toDigits 10 first.natAbs
  else if 0 ≤ d.exponent then
    digits ++ List.replicate d.exponent.toNat '0' ++ ['.', '0']
  else if 0 ≤ first then
    digits.take (first.toNat + 1) ++ '.' :: digits.drop (first.toNat + 1)
  else
    '0' :: '.' :: List.replicate ((-first).toNat - 1) '0' ++ digits

/-- The shortest text of a signed magnitude. -/
def signedText (negative : Bool) (x : Binary64) : List Char :=
  (if negative then ['-'] else []) ++ x.shortest.text jsonLayout

end FreshKeys.Decimal
