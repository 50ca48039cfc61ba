/-!
# Spans of time as text

A span is written in the largest unit that does not exceed it, with the rest as a decimal
fraction without trailing zeros: `6s`, `1.5s`, `500ms`, `1.001µs`, `0ns`.
-/

namespace FreshKeys.Text

/-- The fraction `part / 10 ^ places` after its point, without trailing zeros; nothing for zero. -/
def fraction (places part : Nat) : List Char :=
  let digits := Nat.toDigits 10 part
  let padded := List.replicate (places - digits.length) '0' ++ digits
  match (padded.reverse.dropWhile (· == '0')).reverse with
  | [] => []
  | shown => '.' :: shown

/-- A count of `10 ^ places` nanoseconds and the nanoseconds left over, in a unit. -/
def spanIn (places : Nat) (unit : String) (nanos : Nat) : String :=
  toString (nanos / Nat.pow 10 places) ++
    String.ofList (fraction places (nanos % Nat.pow 10 places)) ++ unit

/-- The text of a span given in nanoseconds. -/
def span (nanos : Nat) : String :=
  if Nat.pow 10 9 ≤ nanos then spanIn 9 "s" nanos
  else if Nat.pow 10 6 ≤ nanos then spanIn 6 "ms" nanos
  else if Nat.pow 10 3 ≤ nanos then spanIn 3 "µs" nanos
  else spanIn 0 "ns" nanos

/-- The text of a span given in milliseconds. -/
def spanOfMillis (millis : Nat) : String := span (millis * Nat.pow 10 6)

end FreshKeys.Text
