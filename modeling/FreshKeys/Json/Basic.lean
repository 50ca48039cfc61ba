import FreshKeys.Decimal.Binary64

/-!
# JSON values

A number is an integer while it fits in 64 bits, signed or unsigned, and a binary64 float
otherwise. The members of an object have distinct keys; writing to a key that is there replaces its
value.
-/

namespace FreshKeys

/-- A number of a JSON value. -/
inductive Json.Number where
  | int (value : Int)
  | float (negative : Bool) (magnitude : Decimal.Binary64)
  deriving DecidableEq, Repr

/-- A JSON value. -/
inductive Json where
  | null
  | bool (value : Bool)
  | number (value : Json.Number)
  | text (value : String)
  | array (items : List Json)
  | object (members : List (String × Json))
  deriving Repr, Inhabited

namespace Json

/-- Named values, such as the fields of a secret. -/
abbrev Members := List (String × Json)

namespace Members

/-- The value under a key. -/
def get? : Members → String → Option Json
  | [], _ => none
  | (k, v) :: rest, key => if k = key then some v else get? rest key

/-- Whether a key is there. -/
def has (members : Members) (key : String) : Bool := (members.get? key).isSome

/-- The members with a value under a key: in the key's place if it is there, else at the end. -/
def put : Members → String → Json → Members
  | [], key, value => [(key, value)]
  | (k, v) :: rest, key, value =>
    if k = key then (key, value) :: rest else (k, v) :: put rest key value

/-- Writing to a key changes the value under it, and no other. -/
theorem get?_put (members : Members) (key : String) (value : Json) (k : String) :
    (members.put key value).get? k = if key = k then some value else members.get? k := by
  induction members with
  | nil => simp [put, get?]
  | cons m rest ih =>
    obtain ⟨name, v⟩ := m
    by_cases hn : name = key
    · subst hn
      by_cases hk : name = k <;> simp [put, get?, hk]
    · by_cases hm : name = k
      · subst hm
        simp [put, get?, hn, Ne.symm hn]
      · simp [put, get?, hn, hm, ih]

end Members

/-- A whole number. -/
def ofNat (n : Nat) : Json := .number (.int n)

/-- The value, or null. -/
def ofOption {α : Type} (f : α → Json) : Option α → Json
  | some a => f a
  | none => .null

/-- The text of a text value. -/
def text? : Json → Option String
  | .text s => some s
  | _ => none

/-- The value under a key of an object. -/
def field? : Json → String → Option Json
  | .object members, key => Members.get? members key
  | _, _ => none

end Json

end FreshKeys
