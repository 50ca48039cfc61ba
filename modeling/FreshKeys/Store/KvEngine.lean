import FreshKeys.Secret
import FreshKeys.Text.Blank

/-!
# The key-value engine

Version 2 of the engine keeps its secrets under a `data` segment after the mount, and wraps each in
an envelope of `data` and `metadata`. Version 1 does neither. A path that has the segment already
is left alone, and so is a payload without an envelope.
-/

namespace FreshKeys.Store

/-- Whether a list of characters contains another. -/
def contains (part : List Char) : List Char → Bool
  | [] => part.isEmpty
  | c :: rest => part.isPrefixOf (c :: rest) || contains part rest

/-- The segment that version 2 reads secrets under, with the slashes around it. -/
def dataSegment : List Char := ['/', 'd', 'a', 't', 'a', '/']

/-- A path with the data segment put after its first segment, if it has more than one. -/
def insertData (path : List Char) : List Char :=
  match path.span (· != '/') with
  | (mount, _ :: rest) => mount ++ dataSegment ++ rest
  | (_, []) => path

/-- The path under which the store answers for a secret. -/
def apiPath (kvV2 : Bool) (path : String) : String :=
  let trimmed := Text.strip Text.isSlash path.toList
  String.ofList (if !kvV2 || contains dataSegment trimmed then trimmed else insertData trimmed)

/-- The name of the payload in an envelope. -/
def payloadKey : String := "data"

/-- The name of what makes an object an envelope. -/
def metadataKey : String := "metadata"

/-- The secret in a payload; none if its envelope says that there is none any more. -/
def unwrap (kvV2 : Bool) (payload : Secret) : Option Secret :=
  if !kvV2 || !payload.has metadataKey then some payload
  else
    match payload.get? payloadKey with
    | some (.object inner) => some inner
    | some .null => none
    | _ => some payload

end FreshKeys.Store
