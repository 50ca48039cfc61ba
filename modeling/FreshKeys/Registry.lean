import FreshKeys.Vault

/-!
# Providers by name

There is one kind of provider, and its name is `vault`. A name is looked up before anything is
built.
-/

namespace FreshKeys.Registry

/-- A kind of provider. -/
inductive Kind where
  | vault
  deriving DecidableEq, Repr

/-- All kinds. -/
def Kind.all : List Kind := [.vault]

/-- The name of a kind. -/
def Kind.name : Kind → String
  | .vault => "vault"

/-- The names of all kinds. -/
def names : List String := Kind.all.map Kind.name

/-- The kind with a name. -/
def lookup (name : String) : Except CreationError Kind :=
  match Kind.all.find? fun k => k.name == name with
  | some kind => .ok kind
  | none => .error (.unknownProvider name)

/-- The notes of a vault that was built. -/
def notes (p : Profile) : List Note :=
  [.clientReady p.address, .providerCreated p.address p.secretPath p.ttl]

/-- Builds a provider of a kind. -/
def Kind.build (kind : Kind) (files : Files) (p : Profile) : Except Rejection Vault :=
  match kind with
  | .vault =>
    match Store.Client.ofProfile files p with
    | .ok client => .ok (.fresh client p)
    | .error causes => .error (.client causes)

/-- Looks a name up and builds the provider. -/
def create (files : Files) (name : String) (p : Profile) : Except CreationError Vault :=
  lookup name >>= fun kind => (kind.build files p).mapError .rejected

end FreshKeys.Registry
