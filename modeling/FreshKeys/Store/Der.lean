/-!
# Tagged values

A tagged value is a tag byte, the length of its content, and the content. Tags of several bytes are
not used, and a length is written in the shortest way and fits in two bytes. What follows a value
is always shorter than what it was read from, so the values in a row of bytes can be read one by
one.
-/

namespace FreshKeys.Store.Der

/-- A tagged value. -/
structure Element where
  tag : UInt8
  content : List UInt8
  deriving DecidableEq, Repr

/-- Content has to be shorter than this. -/
def contentLimit : Nat := 0xFFFF

/-- A length written in some bytes, and what follows them; it has to be at least as great as the
least that needs so many. -/
def written? (count least : Nat) (bytes : List UInt8) : Option (Nat × List UInt8) :=
  let n := (bytes.take count).foldl (fun n b => n * 256 + b.toNat) 0
  if count ≤ bytes.length && least ≤ n && n < contentLimit then some (n, bytes.drop count) else none

/-- The length at the start, and what follows it: a byte below `0x80` is the length itself, `0x81`
goes before one byte and `0x82` before two. -/
def length? : List UInt8 → Option (Nat × List UInt8)
  | [] => none
  | first :: rest =>
    if first < 0x80 then some (first.toNat, rest)
    else if first == 0x81 then written? 1 0x80 rest
    else if first == 0x82 then written? 2 0x100 rest
    else none

/-- What follows a written number is no longer than what it stands in. -/
theorem le_of_written? {count least n : Nat} {bytes rest : List UInt8}
    (h : written? count least bytes = some (n, rest)) : rest.length ≤ bytes.length := by
  simp only [written?, Option.ite_none_right_eq_some, Option.some.injEq, Prod.mk.injEq] at h
  rw [← h.2.2, List.length_drop]
  omega

/-- A length takes up one byte at least. -/
theorem lt_of_length? {n : Nat} {bytes rest : List UInt8} (h : length? bytes = some (n, rest)) :
    rest.length < bytes.length := by
  cases bytes with
  | nil => simp [length?] at h
  | cons first bytes =>
    rw [List.length_cons, Nat.lt_succ_iff]
    simp only [length?] at h
    split at h
    · simp_all
    · split at h
      · exact le_of_written? h
      · split at h
        · exact le_of_written? h
        · simp at h

/-- The tagged value at the start, and what follows it. -/
def next? : List UInt8 → Option (Element × List UInt8)
  | [] => none
  | tag :: bytes =>
    if tag &&& 0x1F == 0x1F then none
    else
      match length? bytes with
      | none => none
      | some (n, rest) =>
        if n ≤ rest.length then some (⟨tag, rest.take n⟩, rest.drop n) else none

/-- An element takes up one byte at least. -/
theorem lt_of_next? {bytes rest : List UInt8} {e : Element} (h : next? bytes = some (e, rest)) :
    rest.length < bytes.length := by
  cases bytes with
  | nil => simp [next?] at h
  | cons tag bytes =>
    simp only [next?] at h
    split at h
    · simp at h
    · split at h
      · simp at h
      · rename_i n body hb
        simp only [Option.ite_none_right_eq_some, Option.some.injEq, Prod.mk.injEq] at h
        have := lt_of_length? hb
        rw [← h.2.2, List.length_drop, List.length_cons]
        omega

/-- The tagged values in a row of bytes. -/
def elements? (bytes : List UInt8) : Option (List Element) :=
  if bytes.isEmpty then some []
  else
    match _h : next? bytes with
    | none => none
    | some (e, rest) => (elements? rest).map (e :: ·)
termination_by bytes.length
decreasing_by exact lt_of_next? _h

/-- The content of a value with the expected tag at the start, and what follows it. -/
def expect? (tag : UInt8) (bytes : List UInt8) : Option (List UInt8 × List UInt8) :=
  match next? bytes with
  | none => none
  | some (e, rest) => if e.tag == tag then some (e.content, rest) else none

/-- The content of a value with the expected tag that takes up all bytes. -/
def whole? (tag : UInt8) (bytes : List UInt8) : Option (List UInt8) :=
  match expect? tag bytes with
  | some (content, []) => some content
  | _ => none

/-- The tag of a truth value. -/
def boolean : UInt8 := 0x01

/-- The tag of an integer. -/
def integer : UInt8 := 0x02

/-- The tag of a bit string. -/
def bitString : UInt8 := 0x03

/-- The tag of an octet string. -/
def octetString : UInt8 := 0x04

/-- The tag of an object identifier. -/
def objectIdentifier : UInt8 := 0x06

/-- The tag of a sequence. -/
def sequence : UInt8 := 0x30

/-- The tag of what is marked with a number in its context. -/
def marked (n : UInt8) : UInt8 := 0xA0 + n

end FreshKeys.Store.Der
