import FreshKeys.Cli.Arguments
import FreshKeys.Files
import FreshKeys.Settings.Reading
import FreshKeys.Failure

/-!
# Where settings come from

Settings come from a file or from the flags. A file stands for all flags that say where the store
is and how it is read; only the inline token is still used, if the file names no source for one. A
token file given by flag takes precedence over an inline token.
-/

namespace FreshKeys.Cli

/-- Why arguments give no settings. -/
inductive SourceError where
  | unreadable (path : String) (error : FileError)
  | malformed (path : String) (fault : Json.Fault)
  | missingAddress
  | missingSecretPath
  deriving DecidableEq, Repr

/-- The causes of a source error. -/
def SourceError.causes : SourceError → Causes
  | .unreadable path error => ["failed to read settings from " ++ Text.quote path, error.message]
  | .malformed path fault =>
    ["failed to parse settings in " ++ Text.quote path, fault.message?.getD "malformed JSON"]
  | .missingAddress => ["--address (or VAULT_ADDR) is required"]
  | .missingSecretPath => ["--secret-path is required"]

namespace Arguments

/-- Settings with the inline token, if they name no source for a token. -/
def lendToken (a : Arguments) (s : Settings) : Settings :=
  if s.token.isNone && s.tokenFile.isNone then { s with token := a.token } else s

/-- The settings in a file. -/
def settingsIn (a : Arguments) (files : Files) (path : String) : Except SourceError Settings :=
  match files.readText path with
  | .error e => .error (.unreadable path e)
  | .ok content =>
    match Settings.ofText content with
    | .error fault => .error (.malformed path fault)
    | .ok s => .ok (a.lendToken s)

/-- The settings that the flags give. -/
def ownSettings (a : Arguments) : Except SourceError Settings :=
  match a.address, a.secretPath with
  | none, _ => .error .missingAddress
  | some _, none => .error .missingSecretPath
  | some address, some secretPath =>
    .ok
      { address, secretPath
        token := if a.tokenFile.isSome then none else a.token
        tokenFile := a.tokenFile
        accessKeyName := a.accessKeyName
        secretKeyName := a.secretKeyName
        ttlMillis := a.ttlMillis
        timeoutMillis := a.timeoutMillis
        fetchTimeoutMillis := a.fetchTimeoutMillis
        caFile := a.caFile
        kvV2 := !a.kvV1 }

/-- The settings of a run. -/
def settings (a : Arguments) (files : Files) : Except SourceError Settings :=
  match a.config with
  | some path => a.settingsIn files path
  | none => a.ownSettings

end Arguments

end FreshKeys.Cli
