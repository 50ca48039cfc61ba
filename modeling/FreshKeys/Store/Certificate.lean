import FreshKeys.Store.Der

/-!
# Certificates

A certificate holds its fields, the algorithm it is signed with, and the signature. A certificate of
version 3 names the algorithm a second time among its fields, and may have extensions; one of
version 1 has no version field and no extensions. Only the shape is looked at: no name, date, key or
signature is checked.
-/

namespace FreshKeys.Store

open Der

/-- An extension of a certificate; whether it is critical makes no difference here. -/
structure Extension where
  identifier : List UInt8
  value : List UInt8
  deriving DecidableEq, Repr

namespace Extension

/-- The identifier of a standard extension. -/
def standard (number : UInt8) : List UInt8 := [0x55, 0x1D, number]

/-- The identifier of the key usage. -/
def keyUsage : List UInt8 := standard 15

/-- The identifiers of the extensions whose value is a sequence: alternative names, basic
constraints, name constraints, revocation lists, and the extended key usage. -/
def sequences : List (List UInt8) := [17, 19, 30, 31, 37].map standard

/-- What follows the flag that an extension is critical, if there is one. -/
def afterFlag? (bytes : List UInt8) : Option (List UInt8) :=
  if bytes.head? == some boolean then
    match expect? boolean bytes with
    | some ([flag], rest) => if flag == 0x00 || flag == 0xFF then some rest else none
    | _ => none
  else some bytes

/-- The extension that a tagged value is. -/
def ofElement? (e : Element) : Option Extension := do
  if e.tag != sequence then none
  let (identifier, rest) ← expect? objectIdentifier e.content
  let value ← whole? octetString (← afterFlag? rest)
  some ⟨identifier, value⟩

/-- Whether the extension is one that may not be repeated. -/
def isSingle (e : Extension) : Bool :=
  e.identifier == keyUsage || sequences.contains e.identifier

/-- Whether the value is of the kind that the identifier asks for. -/
def hasFittingValue (e : Extension) : Bool :=
  !sequences.contains e.identifier || (whole? sequence e.value).isSome

/-- Whether the extensions of one certificate can stand together. -/
def areGood (extensions : List Extension) : Bool :=
  extensions.all hasFittingValue &&
    decide ((extensions.filter isSingle).map (·.identifier)).Nodup

/-- Whether bytes are the extensions of a certificate; there may be none. -/
def isList (bytes : List UInt8) : Bool :=
  ((do
    let list ← whole? sequence (← whole? (marked 3) bytes)
    (← elements? list).mapM ofElement?) : Option (List Extension)).any areGood

end Extension

namespace Certificate

/-- The algorithm among the fields of a certificate after its version (serial number, algorithm,
issuer, validity, subject, key), and what follows the fields. -/
def fields? (bytes : List UInt8) : Option (List UInt8 × List UInt8) := do
  let (_, rest) ← expect? integer bytes
  let (algorithm, rest) ← expect? sequence rest
  let (_, rest) ← expect? sequence rest
  let (_, rest) ← expect? sequence rest
  let (_, rest) ← expect? sequence rest
  let (_, rest) ← expect? sequence rest
  some (algorithm, rest)

/-- Whether a version field says version 3, which is written as two. -/
def isVersion3 (bytes : List UInt8) : Bool := whole? integer bytes == some [2]

/-- Whether the signed part of a certificate is as it should be, next to the algorithm that is named
after it. -/
def isBody (algorithm bytes : List UInt8) : Bool :=
  match expect? (marked 0) bytes with
  | some (version, rest) =>
    match fields? rest with
    | some (named, rest) =>
      isVersion3 version && named == algorithm && (rest.isEmpty || Extension.isList rest)
    | none => false
  | none =>
    match fields? bytes with
    | some (_, rest) => rest.isEmpty
    | none => false

/-- Whether bytes are a certificate; its signature is whole bytes. -/
def isCertificate (bytes : List UInt8) : Bool :=
  ((do
    let outer ← whole? sequence bytes
    let (body, rest) ← expect? sequence outer
    let (algorithm, rest) ← expect? sequence rest
    let signature ← whole? bitString rest
    some (signature.head? == some 0 && isBody algorithm body)) : Option Bool) == some true

end Certificate

end FreshKeys.Store
