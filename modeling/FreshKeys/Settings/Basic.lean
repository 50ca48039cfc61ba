/-!
# Settings

Settings are what an operator writes down: raw, not yet checked, durations in milliseconds. The
token is given inline or in a file.
-/

namespace FreshKeys

/-- Raw settings of a provider. -/
structure Settings where
  address : String
  token : Option String
  tokenFile : Option String
  secretPath : String
  accessKeyName : String
  secretKeyName : String
  ttlMillis : UInt64
  timeoutMillis : UInt64
  fetchTimeoutMillis : UInt64
  caFile : Option String
  kvV2 : Bool
  deriving DecidableEq, Repr

namespace Settings

/-- How long a pair stays valid unless said otherwise. -/
def defaultTtl : UInt64 := 6000

/-- How long a request may take unless said otherwise. -/
def defaultTimeout : UInt64 := 5000

/-- How long a read may take unless said otherwise. -/
def defaultFetchTimeout : UInt64 := 5000

/-- The payloads are unwrapped unless said otherwise. -/
def defaultKvV2 : Bool := true

/-- Settings of a local server, the rest still to be given. -/
def initial : Settings where
  address := "http://127.0.0.1:8200"
  token := none
  tokenFile := none
  secretPath := ""
  accessKeyName := ""
  secretKeyName := ""
  ttlMillis := defaultTtl
  timeoutMillis := defaultTimeout
  fetchTimeoutMillis := defaultFetchTimeout
  caFile := none
  kvV2 := defaultKvV2

/-- A field of settings. -/
inductive Field where
  | address
  | token
  | tokenFile
  | secretPath
  | accessKeyName
  | secretKeyName
  | ttl
  | timeout
  | fetchTimeout
  | caFile
  | kvV2
  deriving DecidableEq, Repr

namespace Field

/-- The fields in order. -/
def all : List Field :=
  [address, token, tokenFile, secretPath, accessKeyName, secretKeyName, ttl, timeout, fetchTimeout,
    caFile, kvV2]

/-- The name a field is written under. -/
def name : Field → String
  | address => "address"
  | token => "token"
  | tokenFile => "token_file"
  | secretPath => "secret_path"
  | accessKeyName => "access_key_name"
  | secretKeyName => "secret_key_name"
  | ttl => "ttl_ms"
  | timeout => "timeout_ms"
  | fetchTimeout => "fetch_timeout_ms"
  | caFile => "ca_file"
  | kvV2 => "kv_v2"

/-- The field with a name. -/
def named? (name : String) : Option Field := all.find? fun f => f.name == name

end Field

end Settings

end FreshKeys
