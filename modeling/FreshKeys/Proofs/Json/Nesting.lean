import FreshKeys.Json.Value
import FreshKeys.Proofs.Profile.Acceptance

/-!
# Values and how deep they nest

What a node spells does not depend on who reads it. A reader of free-form values that allows so many
levels reads exactly the values that nest no deeper.
-/

namespace FreshKeys.Json.Node

mutual

/-- The value that a node spells, however deep it nests. -/
def value? : Node → Option Json
  | .null => some .null
  | .bool b => some (.bool b)
  | .number n => n.map .number
  | .text s => s.map .text
  | .array items closed => if closed then (valuesOf? items).map .array else none
  | .object members closed => if closed then (gathered? [] members).map .object else none
  | .broken => none

/-- The values that items spell. -/
def valuesOf? : List Node → Option (List Json)
  | [] => some []
  | item :: rest => item.value?.bind fun value => (valuesOf? rest).map (value :: ·)

/-- Members put to others, the last of each key. -/
def gathered? : Members → List Member → Option Members
  | done, [] => some done
  | done, (key, node) :: rest =>
    key.bind fun key => node.value?.bind fun value => gathered? (done.put key value) rest

end

mutual

/-- How many levels of arrays and objects a node has. -/
def levels : Node → Nat
  | .array items _ => levelsOfItems items + 1
  | .object members _ => levelsOfMembers members + 1
  | _ => 0

/-- How many levels the deepest of some items has. -/
def levelsOfItems : List Node → Nat
  | [] => 0
  | item :: rest => max item.levels (levelsOfItems rest)

/-- How many levels the deepest value of some members has. -/
def levelsOfMembers : List Member → Nat
  | [] => 0
  | (_, value) :: rest => max value.levels (levelsOfMembers rest)

end

-- The depth that is left and what was gathered so far are arbitrary in each of the three.
mutual

/-- A reader reads the value that a node spells if it allows that many levels. -/
theorem readValue_eq_ok_iff (node : Node) {depth : Nat} {value : Json} :
    readValue depth node = .ok value ↔ node.value? = some value ∧ node.levels ≤ depth := by
  match node, depth with
  | .null, _ => simp [readValue, value?, levels]
  | .bool b, _ => simp [readValue, value?, levels]
  | .number n, _ => cases n <;> simp [readValue, value?, levels]
  | .text s, _ => cases s <;> simp [readValue, value?, levels]
  | .broken, _ => simp [readValue, value?]
  | .array items false, depth => cases depth <;> simp [readValue, value?, Except.bind_eq_ok_iff]
  | .object members false, depth => cases depth <;> simp [readValue, value?, Except.bind_eq_ok_iff]
  | .array items true, 0 => simp [readValue, levels]
  | .object members true, 0 => simp [readValue, levels]
  | .array items true, depth + 1 =>
    simp only [readValue, value?, levels, if_true, Except.bind_eq_ok_iff, Option.map_eq_some_iff,
      Except.ok.injEq, Nat.add_le_add_iff_right, readItems_eq_ok_iff items]
    constructor
    · rintro ⟨values, ⟨hvalues, hlevels⟩, hvalue⟩
      exact ⟨⟨values, hvalues, hvalue⟩, hlevels⟩
    · rintro ⟨⟨values, hvalues, hvalue⟩, hlevels⟩
      exact ⟨values, ⟨hvalues, hlevels⟩, hvalue⟩
  | .object members true, depth + 1 =>
    simp only [readValue, value?, levels, if_true, Except.bind_eq_ok_iff, Option.map_eq_some_iff,
      Except.ok.injEq, Nat.add_le_add_iff_right, gather_eq_ok_iff members]
    constructor
    · rintro ⟨values, ⟨hvalues, hlevels⟩, hvalue⟩
      exact ⟨⟨values, hvalues, hvalue⟩, hlevels⟩
    · rintro ⟨⟨values, hvalues, hvalue⟩, hlevels⟩
      exact ⟨values, ⟨hvalues, hlevels⟩, hvalue⟩

/-- Items are read each as the value it spells. -/
theorem readItems_eq_ok_iff (items : List Node) {depth : Nat} {values : List Json} :
    items.mapM (readValue depth) = .ok values ↔
      valuesOf? items = some values ∧ levelsOfItems items ≤ depth := by
  match items with
  | [] => simp [valuesOf?, levelsOfItems, pure, Except.pure]
  | item :: rest =>
    simp only [List.mapM_cons, valuesOf?, levelsOfItems, Except.bind_eq_ok_iff,
      Option.bind_eq_some_iff, Option.map_eq_some_iff, readValue_eq_ok_iff item,
      readItems_eq_ok_iff rest, Nat.max_le, pure, Except.pure, Except.ok.injEq]
    constructor
    · rintro ⟨value, ⟨hvalue, hlevels⟩, more, ⟨hmore, hrest⟩, hvalues⟩
      exact ⟨⟨value, hvalue, more, hmore, hvalues⟩, hlevels, hrest⟩
    · rintro ⟨⟨value, hvalue, more, hmore, hvalues⟩, hlevels, hrest⟩
      exact ⟨value, ⟨hvalue, hlevels⟩, more, ⟨hmore, hrest⟩, hvalues⟩

/-- Members are gathered each with the value it spells. -/
theorem gather_eq_ok_iff (members : List Member) {depth : Nat} {done values : Members} :
    gather (readValue depth) done members = .ok values ↔
      gathered? done members = some values ∧ levelsOfMembers members ≤ depth := by
  match members with
  | [] => simp [gather, gathered?, levelsOfMembers]
  | (none, node) :: rest => simp [gather, gathered?]
  | (some key, node) :: rest =>
    simp only [gather, gathered?, levelsOfMembers, Except.bind_eq_ok_iff, Option.bind_some,
      Option.bind_eq_some_iff, readValue_eq_ok_iff node, gather_eq_ok_iff rest, Nat.max_le]
    constructor
    · rintro ⟨value, ⟨hvalue, hlevels⟩, hrest, hmore⟩
      exact ⟨⟨value, hvalue, hrest⟩, hlevels, hmore⟩
    · rintro ⟨⟨value, hvalue, hrest⟩, hlevels, hmore⟩
      exact ⟨value, ⟨hvalue, hlevels⟩, hrest, hmore⟩

end

/-- A reader of named values reads an object that spells a value if it allows that many levels. -/
theorem readMembers_eq_ok_iff {members : List Member} {closed : Bool} {depth : Nat}
    {values : Members} :
    readMembers depth (.object members closed) = .ok values ↔
      value? (.object members closed) = some (.object values) ∧
        levels (.object members closed) ≤ depth := by
  rw [← readValue_eq_ok_iff]
  cases depth with
  | zero => simp [readMembers, readValue]
  | succ depth => cases closed <;> simp [readMembers, readValue, Except.bind_eq_ok_iff]

/-- Only an object spells named values. -/
theorem eq_object_of_value? {node : Node} {values : Members}
    (h : node.value? = some (.object values)) :
    ∃ members closed, node = .object members closed := by
  cases node with
  | object members closed => exact ⟨members, closed, rfl⟩
  | array items closed => cases closed <;> simp [value?] at h
  | number n => simp [value?] at h
  | text s => simp [value?] at h
  | _ => cases h

end FreshKeys.Json.Node
