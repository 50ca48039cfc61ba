import FreshKeys.Json.Value
import Mathlib.Data.List.Forall2

/-!
# Objects that differ in some of their values

Two objects have the same keys in the same places, and under each key the same value or two that are
related. If related values are both read, as values that are related again, or both refused, then so
are the objects. Which relation it is may depend on the key.
-/

namespace FreshKeys.Json

variable {A A' B B' : Type}

/-- Two readings come to something that is related, or both to a fault. -/
inductive BothRead (R : A → A' → Prop) : Except Fault A → Except Fault A' → Prop where
  | read {a : A} {a' : A'} (h : R a a') : BothRead R (.ok a) (.ok a')
  | failed (fault fault' : Fault) : BothRead R (.error fault) (.error fault')

namespace BothRead

variable {R : A → A' → Prop} {S : B → B' → Prop} {x : Except Fault A} {x' : Except Fault A'}

/-- A computation reads what it reads, if all values are related to themselves. -/
theorem refl {R : A → A → Prop} (h : ∀ a, R a a) (x : Except Fault A) : BothRead R x x := by
  cases x with
  | ok a => exact .read (h a)
  | error fault => exact .failed fault fault

/-- What is read alike stays so under a weaker relation. -/
theorem mono {T : A → A' → Prop} (h : BothRead R x x') (hle : ∀ {a a'}, R a a' → T a a') :
    BothRead T x x' := by
  cases h with
  | read h => exact .read (hle h)
  | failed fault fault' => exact .failed fault fault'

/-- Two computations in two parts read alike if both parts do. -/
theorem bind (h : BothRead R x x') {f : A → Except Fault B} {f' : A' → Except Fault B'}
    (hf : ∀ {a a'}, R a a' → BothRead S (f a) (f' a')) : BothRead S (x >>= f) (x' >>= f') := by
  cases h with
  | read h => exact hf h
  | failed fault fault' => exact .failed fault fault'

/-- What is read alike stays so when it is mapped. -/
theorem map (h : BothRead R x x') {f : A → B} {f' : A' → B'}
    (hf : ∀ {a a'}, R a a' → S (f a) (f' a')) : BothRead S (x.map f) (x'.map f') := by
  cases h with
  | read h => exact .read (hf h)
  | failed fault fault' => exact .failed fault fault'

end BothRead

/-- Named values under the same keys, under each the same value or two that are related. -/
def Members.Alike (V : String → Json → Json → Prop) (members members' : Members) : Prop :=
  ∀ key, Option.Rel (fun value value' => value = value' ∨ V key value value')
    (members.get? key) (members'.get? key)

namespace Members.Alike

variable {V W : String → Json → Json → Prop} {members members' : Members}

/-- Members are like themselves. -/
theorem refl (V : String → Json → Json → Prop) (members : Members) : members.Alike V members := by
  intro key
  cases members.get? key with
  | none => exact .none
  | some value => exact .some (.inl rfl)

/-- Members that are alike stay so under a weaker relation. -/
theorem mono (h : members.Alike V members') (hle : ∀ {key value value'},
    V key value value' → W key value value') : members.Alike W members' := by
  intro key
  have hkey := h key
  generalize members.get? key = found, members'.get? key = found' at hkey ⊢
  cases hkey with
  | none => exact .none
  | some hvalue => exact .some (hvalue.imp_right hle)

/-- Members stay alike when values that are related are put under the same key. -/
theorem put (h : members.Alike V members') {key : String} {value value' : Json}
    (hvalue : value = value' ∨ V key value value') :
    (members.put key value).Alike V (members'.put key value') := by
  intro k
  rw [get?_put, get?_put]
  by_cases hk : key = k
  · subst hk
    simpa using Option.Rel.some hvalue
  · simpa [hk] using h k

/-- Members that are alike have the same keys. -/
theorem has_eq (h : members.Alike V members') (key : String) :
    members.has key = members'.has key := by
  have hkey := h key
  unfold has
  generalize members.get? key = found, members'.get? key = found' at hkey
  cases hkey <;> rfl

end Members.Alike

namespace Node

/-- Members with the same key, and the same value or two that are related. -/
inductive MemberAlike (R : String → Node → Node → Prop) : Member → Member → Prop where
  | same (member : Member) : MemberAlike R member member
  | changed {key : String} {node node' : Node} (h : R key node node') :
    MemberAlike R (some key, node) (some key, node')

/-- Objects that are the same but for related values. -/
inductive ObjectAlike (R : String → Node → Node → Prop) : Node → Node → Prop where
  | object {members members' : List Member} (closed : Bool)
      (h : List.Forall₂ (MemberAlike R) members members') :
    ObjectAlike R (.object members closed) (.object members' closed)

variable {R : String → Node → Node → Prop} {V : String → Json → Json → Prop}

/-- If related values are read alike, so are the members they belong to. -/
theorem gather_alike {read : Node → Except Fault Json}
    (hread : ∀ key node node', R key node node' → BothRead (V key) (read node) (read node'))
    {members members' : List Member} (h : List.Forall₂ (MemberAlike R) members members')
    {done done' : Members} (hdone : done.Alike V done') :
    BothRead (Members.Alike V) (gather read done members) (gather read done' members') := by
  induction h generalizing done done' with
  | nil => exact .read hdone
  | @cons member member' _ _ hmember _ ih =>
    cases hmember with
    | same =>
      obtain ⟨key, node⟩ := member
      cases key with
      | none => exact .failed _ _
      | some key =>
        exact (BothRead.refl (R := Eq) (fun _ => rfl) (read node)).bind fun hvalue =>
          ih (hdone.put (.inl hvalue))
    | changed hnode => exact (hread _ _ _ hnode).bind fun hvalue => ih (hdone.put (.inr hvalue))

/-- So are objects, as named values. -/
theorem readMembers_alike
    (hread : ∀ key node node', R key node node' → ∀ depth,
      BothRead (V key) (readValue depth node) (readValue depth node'))
    {node node' : Node} (h : ObjectAlike R node node') (depth : Nat) :
    BothRead (Members.Alike V) (readMembers depth node) (readMembers depth node') := by
  obtain ⟨closed, hmembers⟩ := h
  cases depth with
  | zero => exact .failed _ _
  | succ depth =>
    have hgathered := gather_alike (V := V)
      (fun key node node' hnode => hread key node node' hnode depth) hmembers (.refl V [])
    refine hgathered.bind fun hdone => ?_
    cases closed with
    | true => exact .read hdone
    | false => exact .failed _ _

/-- An object is read as the value that its members are. -/
theorem readValue_object (depth : Nat) (members : List Member) (closed : Bool) :
    readValue depth (.object members closed) =
      (readMembers depth (.object members closed)).map .object := by
  cases depth with
  | zero => rfl
  | succ depth =>
    simp only [readValue, readMembers]
    cases gather (readValue depth) [] members <;> cases closed <;> rfl

/-- So are objects, as values. -/
theorem readValue_alike
    (hread : ∀ key node node', R key node node' → ∀ depth,
      BothRead (V key) (readValue depth node) (readValue depth node'))
    {node node' : Node} (h : ObjectAlike R node node') (depth : Nat) :
    BothRead
      (fun value value' => ∃ members members' : Members, value = .object members ∧
        value' = .object members' ∧ members.Alike V members')
      (readValue depth node) (readValue depth node') := by
  have hmembers := readMembers_alike hread h depth
  obtain ⟨closed, -⟩ := h
  rw [readValue_object, readValue_object]
  exact hmembers.map fun hdone => ⟨_, _, rfl, rfl, hdone⟩

end Node

end FreshKeys.Json
