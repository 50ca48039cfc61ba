import FreshKeys.Store.Certificate
import FreshKeys.Text.Base64

/-!
# Certificate files

A certificate file is read line by line. A line that begins a section opens it, the line that ends
a section of the same label closes it, and the lines between are the section's base64 text. A
section that is begun inside another one takes its place and keeps the text so far. A certificate
section has to hold a certificate, and a section of another known label has to be base64; sections
with labels unknown here, and lines outside every section, are passed over. A section that is never
closed spoils the file.
-/

namespace FreshKeys.Store.CertificateFile

/-- The bytes of a text of ASCII characters. -/
def ascii (s : String) : List UInt8 := s.toList.map fun c => UInt8.ofNat c.toNat

/-- The byte of a dash. -/
def dash : UInt8 := 0x2D

/-- The byte of a space. -/
def space : UInt8 := 0x20

/-- Whether a byte ends a line: a line feed or a carriage return. -/
def isLineEnd (b : UInt8) : Bool := b == 0x0A || b == 0x0D

/-- The lines of bytes, without what ends them. -/
def lines : List UInt8 → List (List UInt8)
  | [] => []
  | b :: rest =>
    if isLineEnd b then [] :: lines rest
    else
      match lines rest with
      | [] => [[b]]
      | first :: others => (b :: first) :: others

/-- What a line that begins a section starts with. -/
def opening : List UInt8 := ascii "-----BEGIN "

/-- What a line that ends a section starts with. -/
def closing : List UInt8 := ascii "-----END "

/-- What follows the label of a section. -/
def dashes : List UInt8 := List.replicate 5 dash

/-- The label of a certificate section. -/
def certificateLabel : List UInt8 := ascii "CERTIFICATE"

/-- The labels of the other sections whose text has to be base64. -/
def encodedLabels : List (List UInt8) :=
  ["PUBLIC KEY", "RSA PRIVATE KEY", "PRIVATE KEY", "EC PRIVATE KEY", "X509 CRL",
    "CERTIFICATE REQUEST", "ECHCONFIG"].map ascii

/-- The label of a section that a line begins. After it stand five dashes and nothing else but
spaces, which may stand between the dashes too. -/
def label? (line : List UInt8) : Option (List UInt8) :=
  let body := line.drop opening.length
  let tail := (body.reverse.takeWhile fun b => b == dash || b == space).reverse
  let tail := tail.dropWhile (· == space)
  if tail.count dash == dashes.length then some (body.take (body.length - tail.length)) else none

/-- A section being read: its label and the text so far. -/
structure Section where
  label : List UInt8
  text : List UInt8

/-- Whether a finished section is as it should be. -/
def Section.isGood (s : Section) : Bool :=
  if s.label == certificateLabel then
    (Text.Base64.decode? s.text).any Certificate.isCertificate
  else !encodedLabels.contains s.label || (Text.Base64.decode? s.text).isSome

/-- Whether the lines of a file, from the given open section on, are as they should be. -/
def goodLines : Option Section → List (List UInt8) → Bool
  | none, [] => true
  | some _, [] => false
  | current, line :: rest =>
    if opening.isPrefixOf line then
      match label? line with
      | some label => goodLines (some ⟨label, (current.map (·.text)).getD []⟩) rest
      | none => false
    else
      match current with
      | none => goodLines none rest
      | some s =>
        if (closing ++ s.label ++ dashes).isPrefixOf line then s.isGood && goodLines none rest
        else goodLines (some { s with text := s.text ++ line }) rest

/-- Whether a client can be built with the certificates of a file. -/
def isGood (bytes : ByteArray) : Bool := goodLines none (lines bytes.toList)

end FreshKeys.Store.CertificateFile
