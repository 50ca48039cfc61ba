import FreshKeys.Json.Basic
import FreshKeys.Text.Utf8

/-!
# Number literals

A literal is read digit by digit and then turned into a number. An integer of at most 64 bits is
kept whole. Everything else is a float: its digits are gathered while they fit in 64 unsigned bits,
the digits after that only count for the scale, and the scale is applied as a power of ten.
-/

namespace FreshKeys.Json

open FreshKeys.Text (Mark)
open FreshKeys.Decimal (Binary64)

/-- The parts of a number literal; without a fraction its digits are empty. -/
structure Literal where
  negative : Bool
  whole : List Nat
  fraction : List Nat
  /-- Whether the exponent is negative, and its digits. -/
  exponent : Option (Bool × List Nat)
  deriving DecidableEq, Repr

namespace Literal

/-- The digits at the start, and what follows them. -/
def digits : List Mark → List Nat × List Mark
  | [] => ([], [])
  | none :: rest => ([], none :: rest)
  | some c :: rest =>
    if c.isDigit then
      let (ds, tail) := digits rest
      ((c.toNat - '0'.toNat) :: ds, tail)
    else ([], some c :: rest)

/-- Cutting digits off a text loses no marks. -/
theorem digits_length (s : List Mark) :
    (digits s).1.length + (digits s).2.length = s.length := by
  induction s with
  | nil => rfl
  | cons m rest ih =>
    cases m with
    | none => simp [digits]
    | some c =>
      by_cases h : c.isDigit
      · simp only [digits, h, if_true, List.length_cons]; omega
      · simp [digits, h]

/-- A digit sequence that is not empty, and what follows it. -/
def digits1 (s : List Mark) : Option (List Nat × List Mark) :=
  match digits s with
  | ([], _) => none
  | (ds, rest) => some (ds, rest)

/-- The exponent part at the start: its sign and digits. -/
def scanExponent (s : List Mark) : Option (Option (Bool × List Nat) × List Mark) :=
  match s with
  | some c :: rest =>
    if c = 'e' ∨ c = 'E' then
      match rest with
      | some '-' :: tail => (digits1 tail).map fun (ds, t) => (some (true, ds), t)
      | some '+' :: tail => (digits1 tail).map fun (ds, t) => (some (false, ds), t)
      | _ => (digits1 rest).map fun (ds, t) => (some (false, ds), t)
    else some (none, s)
  | _ => some (none, s)

/-- The fraction part at the start. -/
def scanFraction (s : List Mark) : Option (List Nat × List Mark) :=
  match s with
  | some '.' :: rest => digits1 rest
  | _ => some ([], s)

/-- Whether whole digits have no needless zero in front. -/
def wellStarted : List Nat → Bool
  | [] => false
  | [_] => true
  | d :: _ => d != 0

/-- The sign at the start. -/
def scanSign (s : List Mark) : Bool × List Mark :=
  match s with
  | some '-' :: rest => (true, rest)
  | _ => (false, s)

/-- The literal at the start, and what follows it. -/
def scan (s : List Mark) : Option (Literal × List Mark) :=
  let (negative, s₁) := scanSign s
  let (whole, s₂) := digits s₁
  if wellStarted whole then do
    let (fraction, s₃) ← scanFraction s₂
    let (exponent, s₄) ← scanExponent s₃
    some (⟨negative, whole, fraction, exponent⟩, s₄)
  else none

/-- The greatest unsigned number of 64 bits. -/
def maxWord : Nat := Nat.pow 2 64 - 1

/-- Appends digits while the number fits in 64 bits; the digits that no longer fit are left. -/
def fill : Nat → List Nat → Nat × List Nat
  | n, [] => (n, [])
  | n, d :: ds => if n * 10 + d ≤ maxWord then fill (n * 10 + d) ds else (n, d :: ds)

/-- The number that digits spell. -/
def ofDigits (ds : List Nat) : Nat := ds.foldl (fun n d => n * 10 + d) 0

/-- The greatest exponent that is told apart from an endless one. -/
def maxExponent : Nat := Nat.pow 2 31 - 1

/-- A gathered significand at a scale, as a float; none beyond the format's range. -/
def float? (negative : Bool) (significand : Nat) (scale : Int) : Option Number :=
  ((Binary64.nearest significand 1).bind fun x => x.scale scale).map (.float negative)

/-- An integer while it has at most 64 bits. Minus zero, and what is too small, is a float. -/
def integer? (negative : Bool) (n : Nat) : Option Number :=
  if !negative then some (.int n)
  else if 1 ≤ n ∧ n ≤ Nat.pow 2 63 then some (.int (-n))
  else float? true n 0

/-- The number of a literal; none beyond the range of floats. -/
def number? (l : Literal) : Option Number :=
  let (n, dropped) := fill 0 l.whole
  if l.fraction.isEmpty && l.exponent.isNone && dropped.isEmpty then integer? l.negative n
  else
    let (m, unread) := fill n l.fraction
    let scale : Int := (dropped.length : Int) - ((l.fraction.length - unread.length : Nat) : Int)
    match l.exponent with
    | none => float? l.negative m scale
    | some (down, ds) =>
      let e := ofDigits ds
      if e ≤ maxExponent then float? l.negative m (if down then scale - e else scale + e)
      else if m == 0 || down then some (.float l.negative .zero)
      else none

/-- One digit at least takes up one mark at least. -/
theorem digits1_length {s : List Mark} {ds : List Nat} {rest : List Mark}
    (h : digits1 s = some (ds, rest)) : rest.length < s.length := by
  have hl := digits_length s
  unfold digits1 at h
  split at h
  · simp at h
  · rename_i ds' rest' hne heq
    simp only [Option.some.injEq, Prod.mk.injEq] at h
    obtain ⟨rfl, rfl⟩ := h
    cases ds' with
    | nil => exact absurd rfl hne
    | cons d ds => simp only [heq, List.length_cons] at hl; omega

/-- What follows an exponent is no longer than what it stands in. -/
theorem scanExponent_length {s rest : List Mark} {e : Option (Bool × List Nat)}
    (h : scanExponent s = some (e, rest)) : rest.length ≤ s.length := by
  unfold scanExponent at h
  split at h
  · split at h
    · split at h <;> simp only [Option.map_eq_some_iff, Prod.mk.injEq, Prod.exists] at h <;>
        obtain ⟨ds, t, hd, _, rfl⟩ := h <;> have := digits1_length hd <;>
        simp only [List.length_cons] at * <;> omega
    · simp_all
  · simp_all

/-- What follows a fraction is no longer than what it stands in. -/
theorem scanFraction_length {s rest : List Mark} {ds : List Nat}
    (h : scanFraction s = some (ds, rest)) : rest.length ≤ s.length := by
  unfold scanFraction at h
  split at h
  · have := digits1_length h
    simp only [List.length_cons]; omega
  · simp_all

/-- A literal takes up at least one mark. -/
theorem scan_length {s rest : List Mark} {l : Literal} (h : scan s = some (l, rest)) :
    rest.length < s.length := by
  unfold scan at h
  have hs : (scanSign s).2.length ≤ s.length := by unfold scanSign; split <;> simp
  have hd := digits_length (scanSign s).2
  simp only at h
  split at h
  · rename_i hw
    have hpos : 0 < (digits (scanSign s).2).1.length := by
      cases hc : (digits (scanSign s).2).1 with
      | nil => simp [hc, wellStarted] at hw
      | cons d ds => simp
    simp only [Option.bind_eq_bind, Option.bind_eq_some_iff, Prod.exists, Option.some.injEq,
      Prod.mk.injEq] at h
    obtain ⟨fr, s₃, h₃, ex, s₄, h₄, _, rfl⟩ := h
    have := scanFraction_length h₃
    have := scanExponent_length h₄
    omega
  · simp at h

end Literal

end FreshKeys.Json
