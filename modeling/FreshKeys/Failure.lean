import FreshKeys.Text.Quoted

/-!
# Failed refreshes

A refresh fails either because the source gave no secret or because the secret does not hold the
two tracked fields as texts. The same failure goes to every caller of the refresh.
-/

namespace FreshKeys

/-- What is wrong with a tracked field. -/
inductive ShapeIssue where
  | missing
  | notText
  deriving DecidableEq, Repr

/-- Why a refresh gave no key pair. -/
inductive Failure where
  | sourceUnavailable (reason : String)
  | shapeMismatch (key : String) (issue : ShapeIssue)
  deriving DecidableEq, Repr

/-- What goes wrong, outermost first. -/
abbrev Causes := List String

/-- Causes on one line. -/
def Causes.message (causes : Causes) : String := ": ".intercalate causes

/-- The text of an issue. -/
def ShapeIssue.message : ShapeIssue → String
  | .missing => "key is missing"
  | .notText => "value is not a string"

/-- The name of an issue. -/
def ShapeIssue.name : ShapeIssue → String
  | .missing => "Missing"
  | .notText => "NotAString"

namespace Failure

/-- The text of a failure. -/
def message : Failure → String
  | .sourceUnavailable reason => "secret source unavailable: " ++ reason
  | .shapeMismatch key issue =>
    "secret has unexpected shape at key " ++ Text.quote key ++ ": " ++ issue.message

/-- A failure spelled out with its parts. -/
def describe : Failure → String
  | .sourceUnavailable reason => "SourceUnavailable(" ++ Text.quote reason ++ ")"
  | .shapeMismatch key issue =>
    "SecretShapeMismatch \x7b key: " ++ Text.quote key ++ ", reason: " ++ issue.name ++ " \x7d"

/-- Whether the source gave no secret. -/
def isSourceUnavailable : Failure → Bool
  | .sourceUnavailable _ => true
  | .shapeMismatch _ _ => false

/-- Whether the secret lacks a tracked field. -/
def isShapeMismatch (failure : Failure) : Bool := !failure.isSourceUnavailable

end Failure

end FreshKeys
