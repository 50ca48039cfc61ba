import FreshKeys.Json.Fault

/-!
# Reading values from a tree

One reader for each kind of value a document may be asked for. A value that nobody asks for only
has to keep the rules of JSON: its numbers may be beyond every range, its texts may hold halves of
surrogate pairs, and its nesting is unlimited. A free-form value that is kept nests at most as deep
as its reader allows, and of members with one key it keeps the last.
-/

namespace FreshKeys.Json

namespace Node

/-- The greatest depth of arrays and objects, counted from the root, that is kept. -/
def maxDepth : Nat := 127

mutual

/-- Whether a node keeps the rules of JSON to its end. -/
def sound : Node → Bool
  | .broken => false
  | .array items closed => soundItems items && closed
  | .object members closed => soundMembers members && closed
  | _ => true

/-- Whether all items keep the rules of JSON. -/
def soundItems : List Node → Bool
  | [] => true
  | item :: rest => item.sound && soundItems rest

/-- Whether the values of all members keep the rules of JSON. -/
def soundMembers : List Member → Bool
  | [] => true
  | (_, value) :: rest => value.sound && soundMembers rest

end

/-- A text. -/
def readText (expected : String) : Node → Except Fault String
  | .text (some s) => .ok s
  | node => .error (node.mismatch expected)

/-- A truth value. -/
def readBool : Node → Except Fault Bool
  | .bool b => .ok b
  | node => .error (node.mismatch "a boolean")

/-- An unsigned number of 64 bits. -/
def readWord : Node → Except Fault UInt64
  | .number (some (.int n)) =>
    if 0 ≤ n then .ok (UInt64.ofNat n.toNat)
    else .error (.wrongValue (.number (.int n)) "u64")
  | node => .error (node.mismatch "u64")

/-- Nothing for null, and otherwise what the given reader reads. -/
def readOption {α : Type} (read : Node → Except Fault α) : Node → Except Fault (Option α)
  | .null => .ok none
  | node => (read node).map some

/-- What the given reader reads from each item, in order. -/
def readList {α : Type} (read : Node → Except Fault α) : Node → Except Fault (List α)
  | .array items closed =>
    items.mapM read >>= fun values => if closed then .ok values else .error .malformed
  | node => .error (node.mismatch "a sequence")

/-- Gathers members, the last of each key. -/
def gather (read : Node → Except Fault Json) : Members → List Member → Except Fault Members
  | done, [] => .ok done
  | _, (none, _) :: _ => .error .malformed
  | done, (some key, node) :: rest =>
    read node >>= fun value => gather read (done.put key value) rest

/-- Any value, with at most the given number of levels of arrays and objects. -/
def readValue : Nat → Node → Except Fault Json
  | _, .null => .ok .null
  | _, .bool b => .ok (.bool b)
  | _, .number (some n) => .ok (.number n)
  | _, .text (some s) => .ok (.text s)
  | depth + 1, .array items closed =>
    items.mapM (readValue depth) >>= fun values =>
      if closed then .ok (.array values) else .error .malformed
  | depth + 1, .object members closed =>
    gather (readValue depth) [] members >>= fun values =>
      if closed then .ok (.object values) else .error .malformed
  | _, _ => .error .malformed

/-- Any named values, the object itself counted as one of the levels. -/
def readMembers : Nat → Node → Except Fault Members
  | depth + 1, .object members closed =>
    gather (readValue depth) [] members >>= fun values =>
      if closed then .ok values else .error .malformed
  | 0, .object _ _ => .error .malformed
  | _, node => .error (node.mismatch "a map")

/-- How a record takes its fields from the members of an object. -/
structure Fields (F D : Type) where
  /-- The field with a name, if there is one. -/
  named? : String → Option F
  /-- Whether a draft has a field already. -/
  has : D → F → Bool
  /-- Reads a field into a draft. -/
  put : D → F → Node → Except Fault D

/-- Reads members into a draft, each field at most once; a member that is no field is passed
over. The key decides before the value is looked at. -/
def Fields.collect {F D : Type} (fields : Fields F D) : D → List Member → Except Fault D
  | draft, [] => .ok draft
  | _, (none, _) :: _ => .error .malformed
  | draft, (some key, node) :: rest =>
    match fields.named? key with
    | none => if node.sound then fields.collect draft rest else .error .malformed
    | some field =>
      if fields.has draft field then .error (.duplicateField key)
      else fields.put draft field node >>= fun draft => fields.collect draft rest

/-- Reads items into a draft, in the order of the given fields; the rest of both is left. -/
def Fields.fill {F D : Type} (fields : Fields F D) :
    D → List F → List Node → Except Fault (D × List F × List Node)
  | draft, field :: due, node :: items =>
    fields.put draft field node >>= fun draft => fields.fill draft due items
  | draft, due, items => .ok (draft, due, items)

end Node

/-- What a reader reads from a whole document. -/
def Node.Document.read {α : Type} (read : Node → Except Fault α) (d : Node.Document) :
    Except Fault α :=
  read d.root >>= fun a => if d.ended then .ok a else .error .malformed

mutual

/-- The tree that writes a value, the members of each object in the order of their keys. -/
def toNode : Json → Node
  | .null => .null
  | .bool b => .bool b
  | .number n => .number (some n)
  | .text s => .text (some s)
  | .array items => .array (itemsToNodes items) true
  | .object members =>
    .object ((membersToNodes members).mergeSort fun a b => a.1.getD "" ≤ b.1.getD "") true

/-- The trees of items. -/
def itemsToNodes : List Json → List Node
  | [] => []
  | item :: rest => item.toNode :: itemsToNodes rest

/-- The trees of members. -/
def membersToNodes : Members → List Node.Member
  | [] => []
  | (key, value) :: rest => (some key, value.toNode) :: membersToNodes rest

end

/-- The value of a text, if it is JSON. -/
def ofText? (s : String) : Option Json :=
  match (Node.Document.ofText s).read (Node.readValue s.length) with
  | .ok value => some value
  | .error _ => none

end FreshKeys.Json
