import FreshKeys.Json.Print
import FreshKeys.Settings.Basic

/-!
# Writing settings

Settings are written as one object with their fields in order, what is not given as null. The
token is never written.
-/

namespace FreshKeys.Settings

/-- The fields as they are written. -/
def members (s : Settings) : Json.Members :=
  [(Field.address.name, .text s.address),
    (Field.tokenFile.name, .ofOption .text s.tokenFile),
    (Field.secretPath.name, .text s.secretPath),
    (Field.accessKeyName.name, .text s.accessKeyName),
    (Field.secretKeyName.name, .text s.secretKeyName),
    (Field.ttl.name, .ofNat s.ttlMillis.toNat),
    (Field.timeout.name, .ofNat s.timeoutMillis.toNat),
    (Field.fetchTimeout.name, .ofNat s.fetchTimeoutMillis.toNat),
    (Field.caFile.name, .ofOption .text s.caFile),
    (Field.kvV2.name, .bool s.kvV2)]

/-- The text of settings. -/
def print (s : Settings) : String := (Json.object s.members).print

/-- The token plays no part in the text. -/
theorem print_token (s : Settings) (token : Option String) :
    ({ s with token } : Settings).print = s.print := rfl

end FreshKeys.Settings
