import FreshKeys.Secret

/-!
# What a source answers, and what a refresh comes to

A source is read for the secret at a path. It gives the secret, says that there is none, or fails.
A refresh comes to a key pair or to a failure, the same for everybody who waits for it.
-/

namespace FreshKeys

/-- What came of one read of a source. -/
inductive Reply where
  | secret (secret : Secret)
  /-- The source answered, and holds nothing at the path. -/
  | nothing
  | failed (causes : Causes)
  deriving Repr

/-- The secret of a reply, or why there is none. -/
def Reply.secret? (reply : Reply) (path : String) : Except Failure Secret :=
  match reply with
  | .secret s => .ok s
  | .nothing => .error (.sourceUnavailable ("no data returned for " ++ path))
  | .failed causes => .error (.sourceUnavailable causes.message)

/-- What a refresh, or a call that waits for one, comes to. -/
inductive Outcome where
  | pair (pair : KeyPair)
  | failure (failure : Failure)
  deriving DecidableEq, Repr

/-- The pair of a good outcome. -/
def Outcome.pair? : Outcome → Option KeyPair
  | .pair p => some p
  | .failure _ => none

end FreshKeys
