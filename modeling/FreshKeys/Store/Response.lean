import FreshKeys.Json.Value

/-!
# Answers of the store

An answer is a record of data and warnings, written as an object or as an array of the two. In an
object either may be absent; an array has to give both. Whatever else an object holds is passed
over.
-/

namespace FreshKeys.Store

open Json (Fault Node)

/-- An answer with data of some kind. -/
structure Response (α : Type) where
  data : Option α
  warnings : Option (List String)
  deriving Repr

namespace Response

/-- A field of an answer. -/
inductive Field where
  | data
  | warnings
  deriving DecidableEq, Repr

/-- The fields in order. -/
def Field.all : List Field := [.data, .warnings]

/-- The name a field is written under. -/
def Field.name : Field → String
  | .data => "data"
  | .warnings => "warnings"

/-- The field with a name. -/
def Field.named? (name : String) : Option Field := Field.all.find? fun f => f.name == name

/-- An answer being read: what has been given so far. -/
structure Draft (α : Type) where
  data : Option (Option α)
  warnings : Option (Option (List String))

/-- Whether a field has been given. -/
def Draft.has {α : Type} (d : Draft α) : Field → Bool
  | .data => d.data.isSome
  | .warnings => d.warnings.isSome

/-- Takes a field's value. -/
def Draft.put {α : Type} (readData : Node → Except Fault α) (d : Draft α) (field : Field)
    (node : Node) : Except Fault (Draft α) :=
  match field with
  | .data => (Node.readOption readData node).map fun v => { d with data := some v }
  | .warnings =>
    (Node.readOption (Node.readList (Node.readText "a string")) node).map fun v =>
      { d with warnings := some v }

/-- The answer a draft makes. -/
def Draft.close {α : Type} (d : Draft α) : Response α :=
  ⟨d.data.getD none, d.warnings.getD none⟩

/-- The name of what is expected. -/
def expected : String := "struct ApiResponse"

/-- The answer a tree spells. -/
def ofNode {α : Type} (readData : Node → Except Fault α) : Node → Except Fault (Response α)
  | .object members closed =>
    (⟨Field.named?, Draft.has, Draft.put readData⟩ : Node.Fields Field (Draft α)).collect
        ⟨none, none⟩ members >>= fun draft =>
      if closed then .ok draft.close else .error .malformed
  | .array items closed =>
    (⟨Field.named?, Draft.has, Draft.put readData⟩ : Node.Fields Field (Draft α)).fill
        ⟨none, none⟩ Field.all items >>= fun (draft, due, extra) =>
      if !extra.isEmpty || !closed then .error .malformed
      else if due.isEmpty then .ok draft.close
      else .error (.wrongLength items.length (expected ++ " with 2 elements"))
  | node => .error (node.mismatch expected)

/-- The depth left for the data of an answer that is itself an object or array. -/
def dataDepth : Nat := Node.maxDepth - 1

/-- Reads the data of an answer as a secret. -/
def readSecret : Node → Except Fault Json.Members := Node.readMembers dataDepth

/-- Reads the data of an answer as any value. -/
def readAny : Node → Except Fault Json := Node.readValue dataDepth

end Response

end FreshKeys.Store
