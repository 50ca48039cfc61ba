import FreshKeys.Text.Quoted

/-!
# Key pairs

An access key with its secret key, as handed to callers. Only the first four characters of the
access key id are ever shown, and the secret key is not shown at all.
-/

namespace FreshKeys

/-- An access key id, its secret access key, and the name of what provided them. -/
structure KeyPair where
  accessKeyId : String
  secretAccessKey : String
  providerName : String
  deriving DecidableEq, Repr, Inhabited

namespace KeyPair

/-- The name in every pair read from a secret store. -/
def vaultProvider : String := "VaultConfigProvider"

/-- How many characters of the access key id are shown. -/
def shownLength : Nat := 4

/-- The access key id with a star for each character after the shown ones. -/
def maskedId (pair : KeyPair) : String :=
  let id := pair.accessKeyId.toList
  String.ofList (id.take shownLength ++ List.replicate (id.length - shownLength) '*')

/-- The fields as they may be shown. -/
def shownFields (pair : KeyPair) : List (String × String) :=
  [("access_key_id", pair.maskedId), ("secret_access_key", "<redacted>"),
    ("provider_name", pair.providerName)]

/-- The pair on one line. -/
def describe (pair : KeyPair) : String :=
  "Credentials \x7b " ++
    ", ".intercalate (pair.shownFields.map fun f => f.1 ++ ": " ++ Text.quote f.2) ++ " \x7d"

/-- The pair on lines of its own, each field indented. -/
def describeLines (pair : KeyPair) : String :=
  "Credentials \x7b\n" ++
    String.join (pair.shownFields.map fun f => "    " ++ f.1 ++ ": " ++ Text.quote f.2 ++ ",\n") ++
    "\x7d"

end KeyPair

end FreshKeys
