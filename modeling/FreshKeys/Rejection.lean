import FreshKeys.Failure
import FreshKeys.Text.Span

/-!
# Refused settings

One constructor for each rule that settings may break, or that the client built from them may.
-/

namespace FreshKeys

/-- Why settings make no working configuration. -/
inductive Rejection where
  | empty (field : String)
  | invalidAddress (address : String)
  | duplicateKeyName (name : String)
  | zeroDuration (field : String)
  | durationTooLong (field : String) (maxNanos : Nat)
  | tokenSource
  | token (causes : Causes)
  | client (causes : Causes)
  deriving DecidableEq, Repr

/-- The text of a rejection. -/
def Rejection.message : Rejection → String
  | .empty field => field ++ " must not be empty"
  | .invalidAddress address =>
    "invalid address " ++ Text.quote address ++ ": expected an http:// or https:// URL"
  | .duplicateKeyName name =>
    "access and secret key names must differ (both are " ++ Text.quote name ++ ")"
  | .zeroDuration field => field ++ " must be greater than zero"
  | .durationTooLong field maxNanos => field ++ " must not exceed " ++ Text.span maxNanos
  | .tokenSource => "exactly one of token or token_file must be set"
  | .token causes => "failed to load token: " ++ causes.message
  | .client causes => "failed to build secret store client: " ++ causes.message

/-- Why a provider cannot be created. -/
inductive CreationError where
  | unknownProvider (name : String)
  | rejected (rejection : Rejection)
  deriving DecidableEq, Repr

/-- The text of a creation error; a rejection speaks for itself. -/
def CreationError.message : CreationError → String
  | .unknownProvider name => "cannot create provider: unknown provider " ++ Text.quote name
  | .rejected rejection => rejection.message

end FreshKeys
