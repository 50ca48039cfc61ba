import FreshKeys.Failure
import FreshKeys.Json.Basic
import FreshKeys.KeyPair

/-!
# Secrets and the fields tracked in them

A secret is a set of named values. Of every secret that arrives, two fields are tracked; both are
taken over or neither is. The access key is checked first.
-/

namespace FreshKeys

/-- A secret as its source delivers it. -/
abbrev Secret := Json.Members

namespace Secret

/-- The text under a name, or what is wrong with it. -/
def text (secret : Secret) (name : String) : Except Failure String :=
  match secret.get? name with
  | some (.text value) => .ok value
  | some _ => .error (.shapeMismatch name .notText)
  | none => .error (.shapeMismatch name .missing)

end Secret

/-- A tracked field: its name and the value last taken over. -/
structure TrackedField where
  name : String
  value : String
  deriving DecidableEq, Repr

/-- The two fields tracked in every secret. -/
structure TrackedPair where
  accessKey : TrackedField
  secretKey : TrackedField
  deriving DecidableEq, Repr

namespace TrackedPair

/-- Two fields to track, without values yet. -/
def named (accessKeyName secretKeyName : String) : TrackedPair :=
  ⟨⟨accessKeyName, ""⟩, ⟨secretKeyName, ""⟩⟩

/-- Takes both values over from a secret, or refuses it. -/
def merge (tracked : TrackedPair) (secret : Secret) : Except Failure TrackedPair := do
  let access ← secret.text tracked.accessKey.name
  let hidden ← secret.text tracked.secretKey.name
  .ok ⟨⟨tracked.accessKey.name, access⟩, ⟨tracked.secretKey.name, hidden⟩⟩

/-- The values last taken over, as a pair for callers. -/
def pair (tracked : TrackedPair) : KeyPair :=
  ⟨tracked.accessKey.value, tracked.secretKey.value, KeyPair.vaultProvider⟩

/-- Merges a secret if it can be, and keeps the values otherwise; says what was wrong with it. -/
def absorb (tracked : TrackedPair) (secret : Secret) : TrackedPair × Option Failure :=
  match tracked.merge secret with
  | .ok merged => (merged, none)
  | .error failure => (tracked, some failure)

/-- Merges secrets one after the other, with the values after each and what was wrong with it. -/
def absorbEach : TrackedPair → List Secret → List (TrackedPair × Option Failure)
  | _, [] => []
  | tracked, secret :: rest =>
    let next := tracked.absorb secret
    next :: absorbEach next.1 rest

end TrackedPair

end FreshKeys
