import FreshKeys.Failure
import FreshKeys.KeyPair
import FreshKeys.Text.Span

/-!
# The journal

Everything worth a line in the journal is a note. A note holds only what its line shows, so no
secret key and no unmasked access key id can get into it.
-/

namespace FreshKeys

/-- Something worth a line in the journal. -/
inductive Note where
  /-- A token was read from a file. -/
  | tokenLoaded (path : String)
  /-- A client for the store stands ready. -/
  | clientReady (address : String)
  /-- A provider was created; its validity window is in milliseconds. -/
  | providerCreated (address path : String) (ttl : Nat)
  /-- A consumer's handle has nothing valid to hand out. -/
  | retrieving
  /-- A refresh began. -/
  | refreshing (path : String)
  /-- The store is asked for a secret. -/
  | reading (apiPath : String)
  /-- The store sent warnings along with its answer. -/
  | warned (apiPath : String) (warnings : List String)
  /-- A refresh took new values over. -/
  | refreshed (maskedId : String) (followers : Nat)
  /-- A refresh failed. -/
  | refreshFailed (message : String) (followers : Nat)
  /-- A refresh was given up by its leader. -/
  | refreshCancelled (followers : Nat)
  /-- A refresh had followers, and none of them waited to its end. -/
  | followersGone (followers : Nat)
  deriving DecidableEq, Repr

/-- How much a line matters. -/
inductive Level where
  | debug
  | info
  | warn
  deriving DecidableEq, Repr

/-- The name of a level. -/
def Level.name : Level → String
  | .debug => "DEBUG"
  | .info => "INFO"
  | .warn => "WARN"

/-- A line of the journal. -/
structure Line where
  level : Level
  message : String
  fields : List (String × String)
  deriving DecidableEq, Repr

/-- The line of a note. -/
def Note.line : Note → Line
  | .tokenLoaded path => ⟨.debug, "loaded OpenBao token", [("path", Text.quote path)]⟩
  | .clientReady address => ⟨.debug, "configured OpenBao client", [("address", address)]⟩
  | .providerCreated address path ttl =>
    ⟨.info, "created vault credentials provider",
      [("address", address), ("path", path), ("ttl", Text.spanOfMillis ttl)]⟩
  | .retrieving => ⟨.debug, "credentials missing or expired, retrieving", []⟩
  | .refreshing path => ⟨.debug, "refreshing credentials", [("path", path)]⟩
  | .reading apiPath => ⟨.debug, "reading secret from OpenBao", [("path", apiPath)]⟩
  | .warned apiPath warnings =>
    ⟨.warn, "OpenBao returned warnings",
      [("path", apiPath), ("warnings", Text.quoteAll warnings)]⟩
  | .refreshed maskedId followers =>
    ⟨.info, "credentials refreshed",
      [("access_key_id", maskedId), ("followers", toString followers)]⟩
  | .refreshFailed message followers =>
    ⟨.warn, "credential refresh failed",
      [("error", message), ("followers", toString followers)]⟩
  | .refreshCancelled followers =>
    ⟨.warn, "credential refresh cancelled", [("followers", toString followers)]⟩
  | .followersGone followers =>
    ⟨.debug, "all followers left before the refresh finished",
      [("followers", toString followers)]⟩

end FreshKeys
