import FreshKeys.Json.Value
import FreshKeys.Settings.Basic

/-!
# Reading settings

Settings are an object with named members or an array in the order of the fields. Unknown members
are passed over; a field may be given once. Address, secret path and the two key names are
required, everything else has a default. Faults are met in the order of the document, and what is
missing is noticed where the object or array ends.
-/

namespace FreshKeys

open Json (Fault Node)

namespace Settings

/-- Settings being read: what has been given so far. -/
structure Draft where
  address : Option String
  token : Option (Option String)
  tokenFile : Option (Option String)
  secretPath : Option String
  accessKeyName : Option String
  secretKeyName : Option String
  ttl : Option UInt64
  timeout : Option UInt64
  fetchTimeout : Option UInt64
  caFile : Option (Option String)
  kvV2 : Option Bool
  deriving DecidableEq, Repr

namespace Draft

/-- Nothing given yet. -/
def blank : Draft := ⟨none, none, none, none, none, none, none, none, none, none, none⟩

/-- Whether a field has been given. -/
def has (d : Draft) : Field → Bool
  | .address => d.address.isSome
  | .token => d.token.isSome
  | .tokenFile => d.tokenFile.isSome
  | .secretPath => d.secretPath.isSome
  | .accessKeyName => d.accessKeyName.isSome
  | .secretKeyName => d.secretKeyName.isSome
  | .ttl => d.ttl.isSome
  | .timeout => d.timeout.isSome
  | .fetchTimeout => d.fetchTimeout.isSome
  | .caFile => d.caFile.isSome
  | .kvV2 => d.kvV2.isSome

/-- A text field. -/
def readText : Node → Except Fault String := Node.readText "a string"

/-- A path field. -/
def readPath : Node → Except Fault String := Node.readText "path string"

/-- Takes a field's value. -/
def put (d : Draft) (field : Field) (node : Node) : Except Fault Draft :=
  match field with
  | .address => (readText node).map fun v => { d with address := some v }
  | .token => (Node.readOption readText node).map fun v => { d with token := some v }
  | .tokenFile => (Node.readOption readPath node).map fun v => { d with tokenFile := some v }
  | .secretPath => (readText node).map fun v => { d with secretPath := some v }
  | .accessKeyName => (readText node).map fun v => { d with accessKeyName := some v }
  | .secretKeyName => (readText node).map fun v => { d with secretKeyName := some v }
  | .ttl => (Node.readWord node).map fun v => { d with ttl := some v }
  | .timeout => (Node.readWord node).map fun v => { d with timeout := some v }
  | .fetchTimeout => (Node.readWord node).map fun v => { d with fetchTimeout := some v }
  | .caFile => (Node.readOption readPath node).map fun v => { d with caFile := some v }
  | .kvV2 => (Node.readBool node).map fun v => { d with kvV2 := some v }

/-- The settings a draft makes; else the first required field that has not been given. -/
def close (d : Draft) : Except Field Settings := do
  let address ← d.address.elim (.error .address) .ok
  let secretPath ← d.secretPath.elim (.error .secretPath) .ok
  let accessKeyName ← d.accessKeyName.elim (.error .accessKeyName) .ok
  let secretKeyName ← d.secretKeyName.elim (.error .secretKeyName) .ok
  .ok
    { address, secretPath, accessKeyName, secretKeyName
      token := d.token.getD none
      tokenFile := d.tokenFile.getD none
      ttlMillis := d.ttl.getD defaultTtl
      timeoutMillis := d.timeout.getD defaultTimeout
      fetchTimeoutMillis := d.fetchTimeout.getD defaultFetchTimeout
      caFile := d.caFile.getD none
      kvV2 := d.kvV2.getD defaultKvV2 }

end Draft

/-- How settings take their fields. -/
def fields : Node.Fields Field Draft := ⟨Field.named?, Draft.has, Draft.put⟩

/-- The name of what is expected. -/
def expected : String := "struct ProviderSettings"

/-- The fault of a field that is missing at the end of an object. -/
def missing (field : Field) : Fault := .missingField field.name

/-- The fault of a field that is missing at the end of an array. -/
def tooShort (field : Field) : Fault :=
  .wrongLength (Field.all.idxOf field) (expected ++ " with 11 elements")

/-- The settings a tree spells. What an array with more items than fields means is given, as a
fault for the number of its items. -/
def ofNode (tooLong : Nat → Fault) : Node → Except Fault Settings
  | .object members closed =>
    fields.collect .blank members >>= fun draft =>
      if closed then draft.close.mapError missing else .error .malformed
  | .array items closed =>
    fields.fill .blank Field.all items >>= fun (draft, _, extra) =>
      if extra.isEmpty && !closed then .error .malformed
      else draft.close.mapError tooShort >>= fun settings =>
        if extra.isEmpty then .ok settings else .error (tooLong items.length)
  | node => .error (node.mismatch expected)

/-- The settings that a text spells. -/
def ofText (text : String) : Except Fault Settings :=
  (Node.Document.ofText text).read (ofNode fun _ => .malformed)

/-- The settings that a value makes. -/
def ofJson (value : Json) : Except Fault Settings :=
  ofNode (fun n => .wrongLength n "fewer elements in array") value.toNode

end Settings

end FreshKeys
