import FreshKeys.Files
import FreshKeys.Journal
import FreshKeys.Rejection
import FreshKeys.Settings.Basic
import FreshKeys.Text.Blank

/-!
# Accepted profiles

A profile is settings that passed every check. The address loses the blanks around it and its
trailing slashes, the secret path the blanks and then the slashes around it, the token the blanks
around it. The checks are made in a fixed order, the token's last: no token file is read for
settings that break another rule.
-/

namespace FreshKeys

/-- A checked configuration, durations in milliseconds. -/
structure Profile where
  address : String
  token : String
  secretPath : String
  accessKeyName : String
  secretKeyName : String
  ttl : Nat
  fetchTimeout : Nat
  timeout : Nat
  caFile : Option String
  kvV2 : Bool
  deriving DecidableEq, Repr

namespace Profile

/-- The longest time a pair may stay valid, in milliseconds: 365 days. -/
def maxTtl : Nat := 365 * 24 * 60 * 60 * 1000

/-- The token in a file, without the blanks around it. -/
def loadToken (files : Files) (path : String) : Except Causes String :=
  match files.readText path with
  | .ok content => .ok (Text.trim content)
  | .error e => .error ["failed to read token from " ++ Text.quote path, e.message]

/-- An address as it is kept. -/
def normalAddress (address : String) : String := Text.trimSlashesEnd (Text.trim address)

/-- A secret path as it is kept. -/
def normalPath (path : String) : String := Text.trimSlashes (Text.trim path)

/-- Whether an address names a scheme that requests can be sent over. -/
def hasScheme (address : String) : Bool :=
  "http://".toList.isPrefixOf address.toList || "https://".toList.isPrefixOf address.toList

/-- Refuses with a rejection when a rule is broken. -/
def refuseIf (broken : Bool) (rejection : Rejection) : Except Rejection Unit :=
  if broken then .error rejection else .ok ()

/-- The rules for where the store is and what is read from it. -/
def checkPlace (address secretPath : String) : Except Rejection Unit := do
  refuseIf address.isEmpty (.empty Settings.Field.address.name)
  refuseIf (!hasScheme address) (.invalidAddress address)
  refuseIf secretPath.isEmpty (.empty Settings.Field.secretPath.name)

/-- The rules for the names of the tracked fields. -/
def checkNames (accessKeyName secretKeyName : String) : Except Rejection Unit := do
  refuseIf accessKeyName.isEmpty (.empty Settings.Field.accessKeyName.name)
  refuseIf secretKeyName.isEmpty (.empty Settings.Field.secretKeyName.name)
  refuseIf (accessKeyName == secretKeyName) (.duplicateKeyName accessKeyName)

/-- The rules for durations, in milliseconds. -/
def checkDurations (ttl timeout fetchTimeout : Nat) : Except Rejection Unit := do
  refuseIf (ttl == 0) (.zeroDuration Settings.Field.ttl.name)
  refuseIf (maxTtl < ttl) (.durationTooLong Settings.Field.ttl.name (maxTtl * Nat.pow 10 6))
  refuseIf (timeout == 0) (.zeroDuration Settings.Field.timeout.name)
  refuseIf (fetchTimeout == 0) (.zeroDuration Settings.Field.fetchTimeout.name)

/-- The token of settings, from the one source they name. -/
def resolveToken (files : Files) (token tokenFile : Option String) : Except Rejection String := do
  let found ←
    match token, tokenFile with
    | some inline, none => .ok (Text.trim inline)
    | none, some path => (loadToken files path).mapError .token
    | _, _ => .error .tokenSource
  refuseIf found.isEmpty (.empty Settings.Field.token.name)
  .ok found

/-- The profile of settings, or the first rule they break. -/
def ofSettings (files : Files) (s : Settings) : Except Rejection Profile := do
  let address := normalAddress s.address
  let secretPath := normalPath s.secretPath
  checkPlace address secretPath
  checkNames s.accessKeyName s.secretKeyName
  checkDurations s.ttlMillis.toNat s.timeoutMillis.toNat s.fetchTimeoutMillis.toNat
  let token ← resolveToken files s.token s.tokenFile
  .ok
    { address, token, secretPath
      accessKeyName := s.accessKeyName
      secretKeyName := s.secretKeyName
      ttl := s.ttlMillis.toNat
      fetchTimeout := s.fetchTimeoutMillis.toNat
      timeout := s.timeoutMillis.toNat
      caFile := s.caFile
      kvV2 := s.kvV2 }

/-- What is noted when settings are accepted: the token file, if there is one. -/
def notes (s : Settings) : List Note := (s.tokenFile.map Note.tokenLoaded).toList

/-- The profile of the required fields alone, the rest as it is unless said otherwise. -/
def ofRequired (address token secretPath accessKeyName secretKeyName : String) :
    Except Rejection Profile :=
  ofSettings .empty
    { Settings.initial with
      address, token := some token, secretPath, accessKeyName, secretKeyName }

/-- A text that may be absent, spelled out. -/
def describeOption : Option String → String
  | some text => "Some(" ++ Text.quote text ++ ")"
  | none => "None"

/-- The profile on one line, its token hidden. -/
def describe (p : Profile) : String :=
  "ProviderConfig \x7b address: " ++ Text.quote p.address ++ ", token: \"<redacted>\"" ++
    ", secret_path: " ++ Text.quote p.secretPath ++
    ", access_key_name: " ++ Text.quote p.accessKeyName ++
    ", secret_key_name: " ++ Text.quote p.secretKeyName ++
    ", ttl: " ++ Text.spanOfMillis p.ttl ++
    ", fetch_timeout: " ++ Text.spanOfMillis p.fetchTimeout ++
    ", kv_v2: " ++ (if p.kvV2 then "true" else "false") ++
    ", transport: TransportSettings \x7b timeout: " ++ Text.spanOfMillis p.timeout ++
    ", ca_file: " ++ describeOption p.caFile ++ " \x7d \x7d"

/-- The token plays no part in the description. -/
theorem describe_token (p : Profile) (token : String) :
    ({ p with token } : Profile).describe = p.describe := rfl

end Profile

end FreshKeys
