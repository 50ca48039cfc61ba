import FreshKeys.Registry
import FreshKeys.Settings.Basic

/-!
# Arguments

An argument is a flag with a value, a switch, or a mistake. The value of a flag follows an equals
sign or is the next argument, which then must not look like a flag. Each flag and switch may be
given once. Arguments are taken from the left, and the first one that is a mistake, or that asks
for help or for the version, ends the reading.
-/

namespace FreshKeys.Cli

/-- Why there are no arguments to go on with. -/
inductive UsageError where
  | help
  | version
  | invalid
  deriving DecidableEq, Repr

/-- An argument that takes a value. -/
inductive Flag where
  | config
  | provider
  | address
  | token
  | tokenFile
  | secretPath
  | accessKeyName
  | secretKeyName
  | ttl
  | timeout
  | fetchTimeout
  | caFile
  | poll
  | logFormat
  deriving DecidableEq, Repr

/-- An argument that takes no value. -/
inductive Switch where
  | kvV1
  | exporting
  | watch
  deriving DecidableEq, Repr

/-- The form of log lines. -/
inductive LogFormat where
  | text
  | json
  deriving DecidableEq, Repr

namespace Flag

/-- All flags. -/
def all : List Flag :=
  [.config, .provider, .address, .token, .tokenFile, .secretPath, .accessKeyName, .secretKeyName,
    .ttl, .timeout, .fetchTimeout, .caFile, .poll, .logFormat]

/-- The name of a flag, without the dashes. -/
def name : Flag → String
  | config => "config"
  | provider => "provider"
  | address => "address"
  | token => "token"
  | tokenFile => "token-file"
  | secretPath => "secret-path"
  | accessKeyName => "access-key-name"
  | secretKeyName => "secret-key-name"
  | ttl => "ttl-ms"
  | timeout => "timeout-ms"
  | fetchTimeout => "fetch-timeout-ms"
  | caFile => "ca-file"
  | poll => "poll-ms"
  | logFormat => "log-format"

/-- The flag with a name. -/
def named? (name : String) : Option Flag := all.find? fun f => f.name == name

end Flag

namespace Switch

/-- All switches. -/
def all : List Switch := [.kvV1, .exporting, .watch]

/-- The name of a switch, without the dashes. -/
def name : Switch → String
  | kvV1 => "kv-v1"
  | exporting => "export"
  | watch => "watch"

/-- The switch with a name. -/
def named? (name : String) : Option Switch := all.find? fun s => s.name == name

end Switch

/-- The log format with a name. -/
def LogFormat.named? : String → Option LogFormat
  | "text" => some .text
  | "json" => some .json
  | _ => none

/-- The number of 64 bits that a text spells: digits, with a plus sign before them or not. -/
def word? (text : String) : Option UInt64 :=
  let digits :=
    match text.toList with
    | '+' :: rest => rest
    | all => all
  if digits.isEmpty || !digits.all Char.isDigit then none
  else
    let n := digits.foldl (fun n c => n * 10 + (c.toNat - '0'.toNat)) 0
    if n < UInt64.size then some (UInt64.ofNat n) else none

/-- Whether a flag takes a value: a path is never empty, and numbers and formats have to be some. -/
def Flag.takes (flag : Flag) (value : String) : Bool :=
  match flag with
  | .config | .tokenFile | .caFile => !value.isEmpty
  | .ttl | .timeout | .fetchTimeout | .poll => (word? value).isSome
  | .logFormat => (LogFormat.named? value).isSome
  | _ => true

/-- What one argument says. -/
inductive Word where
  | help
  | version
  | turnOn (switch : Switch)
  /-- A flag whose value is the next argument. -/
  | valueOf (flag : Flag)
  /-- A flag with its value. -/
  | assignment (flag : Flag) (value : String)
  /-- Nothing after this is a flag. -/
  | terminator
  | mistake
  deriving DecidableEq, Repr

/-- What an argument without a value says. -/
def Word.ofName (name : String) : Word :=
  if name = "help" then .help
  else if name = "version" then .version
  else
    match Switch.named? name with
    | some switch => .turnOn switch
    | none =>
      match Flag.named? name with
      | some flag => .valueOf flag
      | none => .mistake

/-- What an argument with a value says. -/
def Word.ofAssignment (name value : String) : Word :=
  match Flag.named? name with
  | some flag => .assignment flag value
  | none => .mistake

/-- What an argument says. -/
def Word.ofText (text : String) : Word :=
  match text.toList with
  | ['-', '-'] => .terminator
  | '-' :: '-' :: long =>
    match long.span (· != '=') with
    | (name, []) => .ofName (String.ofList name)
    | (name, _ :: value) => .ofAssignment (String.ofList name) (String.ofList value)
  | '-' :: 'h' :: _ => .help
  | '-' :: 'V' :: _ => .version
  | _ => .mistake

/-- Whether an argument can be the value of the flag before it. -/
def isValue (text : String) : Bool :=
  match text.toList with
  | ['-'] => true
  | '-' :: _ => false
  | _ => true

/-- The flags and switches that were given. -/
structure Given where
  values : List (Flag × String)
  switches : List Switch
  deriving DecidableEq, Repr

namespace Given

/-- Nothing was given. -/
def nothing : Given := ⟨[], []⟩

/-- The value of a flag. -/
def value? (g : Given) (flag : Flag) : Option String :=
  (g.values.find? fun v => v.1 == flag).map Prod.snd

/-- Takes a flag with its value. -/
def set (g : Given) (flag : Flag) (value : String) : Except UsageError Given :=
  if (g.value? flag).isSome || !flag.takes value then .error .invalid
  else .ok { g with values := g.values ++ [(flag, value)] }

/-- Takes a switch. -/
def turnOn (g : Given) (switch : Switch) : Except UsageError Given :=
  if g.switches.contains switch then .error .invalid
  else .ok { g with switches := g.switches ++ [switch] }

/-- Takes arguments from the left. -/
def scan : Given → List String → Except UsageError Given
  | g, [] => .ok g
  | g, text :: rest =>
    match Word.ofText text with
    | .help => .error .help
    | .version => .error .version
    | .turnOn switch => g.turnOn switch >>= fun g => scan g rest
    | .assignment flag value => g.set flag value >>= fun g => scan g rest
    | .valueOf flag =>
      match rest with
      | value :: more =>
        if isValue value then g.set flag value >>= fun g => scan g more else .error .invalid
      | [] => .error .invalid
    | .terminator => if rest.isEmpty then .ok g else .error .invalid
    | .mistake => .error .invalid

end Given

/-- What the environment has to say: `VAULT_ADDR` and `VAULT_TOKEN`. -/
structure Environment where
  address : Option String
  token : Option String
  deriving DecidableEq, Repr

/-- The arguments of a run, defaults and environment included. -/
structure Arguments where
  config : Option String
  provider : String
  address : Option String
  token : Option String
  tokenFile : Option String
  secretPath : Option String
  accessKeyName : String
  secretKeyName : String
  ttlMillis : UInt64
  timeoutMillis : UInt64
  fetchTimeoutMillis : UInt64
  caFile : Option String
  kvV1 : Bool
  exporting : Bool
  watch : Bool
  pollMillis : UInt64
  logFormat : LogFormat
  deriving DecidableEq, Repr

namespace Arguments

/-- The name of the access key unless said otherwise. -/
def defaultAccessKeyName : String := "access_key_id"

/-- The name of the secret key unless said otherwise. -/
def defaultSecretKeyName : String := "secret_access_key"

/-- How often a watching program looks unless said otherwise, in milliseconds. -/
def defaultPoll : UInt64 := 1000

/-- What was given, with the environment and the defaults for the rest. -/
def ofGiven (env : Environment) (g : Given) : Arguments where
  config := g.value? .config
  provider := (g.value? .provider).getD Registry.Kind.vault.name
  address := (g.value? .address).or env.address
  token := (g.value? .token).or env.token
  tokenFile := g.value? .tokenFile
  secretPath := g.value? .secretPath
  accessKeyName := (g.value? .accessKeyName).getD defaultAccessKeyName
  secretKeyName := (g.value? .secretKeyName).getD defaultSecretKeyName
  ttlMillis := ((g.value? .ttl).bind word?).getD Settings.defaultTtl
  timeoutMillis := ((g.value? .timeout).bind word?).getD Settings.defaultTimeout
  fetchTimeoutMillis := ((g.value? .fetchTimeout).bind word?).getD Settings.defaultFetchTimeout
  caFile := g.value? .caFile
  kvV1 := g.switches.contains .kvV1
  exporting := g.switches.contains .exporting
  watch := g.switches.contains .watch
  pollMillis := ((g.value? .poll).bind word?).getD defaultPoll
  logFormat := ((g.value? .logFormat).bind LogFormat.named?).getD .text

/-- The arguments that a command line gives. -/
def parse (env : Environment) (argv : List String) : Except UsageError Arguments :=
  (Given.nothing.scan argv).map (ofGiven env)

end Arguments

end FreshKeys.Cli
