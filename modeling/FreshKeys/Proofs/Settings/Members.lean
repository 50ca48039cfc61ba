import FreshKeys.Proofs.Profile.Acceptance
import FreshKeys.Proofs.Settings.RoundTrip
import Mathlib.Data.List.Perm.Basic
import Mathlib.Logic.Relation

/-!
# Settings depend on their known members alone

Settings are read from the members of an object one after the other, and what one member gives does
not depend on where it stands. So members may change places, members with unknown names may come and
go, and a field that may be left out may as well be written with what it is when it is left out.
-/

namespace FreshKeys.Settings

open Json (Fault Node)
open Json.Node (Member)

namespace Field

/-- What a field holds. -/
def Value : Field → Type
  | .address | .secretPath | .accessKeyName | .secretKeyName => String
  | .token | .tokenFile | .caFile => Option String
  | .ttl | .timeout | .fetchTimeout => UInt64
  | .kvV2 => Bool

/-- The value of a field in a node. -/
def read : (field : Field) → Node → Except Fault field.Value
  | .address | .secretPath | .accessKeyName | .secretKeyName => Draft.readText
  | .token => Node.readOption Draft.readText
  | .tokenFile | .caFile => Node.readOption Draft.readPath
  | .ttl | .timeout | .fetchTimeout => Node.readWord
  | .kvV2 => Node.readBool

/-- What a field holds if it is left out, unless it has to be given. -/
def default? : (field : Field) → Option field.Value
  | .address | .secretPath | .accessKeyName | .secretKeyName => none
  | .token | .tokenFile | .caFile => some none
  | .ttl => some defaultTtl
  | .timeout => some defaultTimeout
  | .fetchTimeout => some defaultFetchTimeout
  | .kvV2 => some defaultKvV2

/-- A field is found under its own name only. -/
theorem eq_name_of_named? {name : String} {field : Field} (h : named? name = some field) :
    name = field.name := by
  have hfound := List.find?_some h
  exact (eq_of_beq hfound).symm

end Field

namespace Draft

variable {d d' : Draft} {f g : Field}

/-- Gives a field a value. -/
def set (d : Draft) : (field : Field) → field.Value → Draft
  | .address, v => { d with address := some v }
  | .token, v => { d with token := some v }
  | .tokenFile, v => { d with tokenFile := some v }
  | .secretPath, v => { d with secretPath := some v }
  | .accessKeyName, v => { d with accessKeyName := some v }
  | .secretKeyName, v => { d with secretKeyName := some v }
  | .ttl, v => { d with ttl := some v }
  | .timeout, v => { d with timeout := some v }
  | .fetchTimeout, v => { d with fetchTimeout := some v }
  | .caFile, v => { d with caFile := some v }
  | .kvV2, v => { d with kvV2 := some v }

/-- Taking a field is reading it and giving it the value. -/
theorem put_eq (d : Draft) (field : Field) (node : Node) :
    d.put field node = (field.read node).map (d.set field) := by
  cases field <;> rfl

/-- A field that is given its value has been given. -/
theorem has_set_self (d : Draft) (field : Field) (v : field.Value) :
    (d.set field v).has field = true := by
  cases field <;> rfl

/-- A field has no say in whether another one has been given. -/
theorem has_set (h : f ≠ g) (v : f.Value) : (d.set f v).has g = d.has g := by
  cases f <;> cases g <;> first | rfl | exact absurd rfl h

/-- Different fields can be given in either order. -/
theorem set_comm (h : f ≠ g) (v : f.Value) (w : g.Value) :
    (d.set f v).set g w = (d.set g w).set f v := by
  cases f <;> cases g <;> first | rfl | exact absurd rfl h

/-- A field makes no difference that holds what it would hold if it were left out. -/
theorem close_set {v : f.Value} (hdefault : f.default? = some v) (habsent : d.has f = false) :
    (d.set f v).close = d.close := by
  cases f <;> cases hdefault <;>
    simp only [has, Option.isSome_eq_false_iff, Option.isNone_iff_eq_none] at habsent <;>
    simp only [close, set, habsent, Option.getD_some, Option.getD_none]

end Draft

/-- Takes one member of an object. -/
def take (d : Draft) : Member → Except Fault Draft
  | (none, _) => .error .malformed
  | (some key, node) =>
    match Field.named? key with
    | none => if node.sound then .ok d else .error .malformed
    | some field => if d.has field then .error (.duplicateField key) else d.put field node

/-- Members are taken one after the other. -/
theorem collect_cons (d : Draft) (m : Member) (members : List Member) :
    fields.collect d (m :: members) = take d m >>= fun next => fields.collect next members := by
  obtain ⟨key, node⟩ := m
  cases key with
  | none => rfl
  | some key =>
    have hnamed : fields.named? key = Field.named? key := rfl
    cases hname : Field.named? key with
    | none =>
      simp only [Node.Fields.collect, take, hnamed, hname]
      cases node.sound <;> rfl
    | some field =>
      have hhas : fields.has d field = d.has field := rfl
      simp only [Node.Fields.collect, take, hnamed, hname, hhas]
      cases d.has field <;> rfl

/-- What taking a member does. -/
inductive Taken (d : Draft) : Member → Draft → Prop where
  /-- A member with an unknown name is passed over. -/
  | unknown {key : String} {node : Node} (hname : Field.named? key = none)
    (hsound : node.sound = true) : Taken d (some key, node) d
  /-- A field is given its value. -/
  | field {field : Field} {node : Node} {v : field.Value} (habsent : d.has field = false)
    (hread : field.read node = .ok v) : Taken d (some field.name, node) (d.set field v)

/-- A member is taken in one of the two ways, or not at all. -/
theorem take_eq_ok_iff {d d' : Draft} {m : Member} : take d m = .ok d' ↔ Taken d m d' := by
  constructor
  · intro h
    obtain ⟨key, node⟩ := m
    cases key with
    | none => cases h
    | some key =>
      cases hname : Field.named? key with
      | none =>
        cases hsound : node.sound with
        | false => simp [take, hname, hsound] at h
        | true =>
          obtain rfl : d = d' := by simpa [take, hname, hsound] using h
          exact .unknown hname hsound
      | some field =>
        obtain rfl := Field.eq_name_of_named? hname
        cases habsent : d.has field with
        | true => simp [take, hname, habsent] at h
        | false =>
          simp only [take, hname, habsent, Bool.false_eq_true, if_false, Draft.put_eq] at h
          cases hread : field.read node with
          | error fault => simp [hread, Except.map] at h
          | ok v =>
            obtain rfl : d.set field v = d' := by simpa [hread, Except.map] using h
            exact .field habsent hread
  · intro h
    cases h with
    | unknown hname hsound => simp [take, hname, hsound]
    | field habsent hread => simp [take, named?_name, habsent, Draft.put_eq, hread, Except.map]

/-- Members are collected exactly if the first is taken and then the rest. -/
theorem collect_cons_eq_ok_iff {d d' : Draft} {m : Member} {members : List Member} :
    fields.collect d (m :: members) = .ok d' ↔
      ∃ next, Taken d m next ∧ fields.collect next members = .ok d' := by
  simp only [collect_cons, Except.bind_eq_ok_iff, take_eq_ok_iff]

/-- Members that are taken one after the other can be taken the other way round. -/
theorem Taken.swap {d next d' : Draft} {m m' : Member} (first : Taken d m next)
    (second : Taken next m' d') : ∃ other, Taken d m' other ∧ Taken other m d' := by
  cases first with
  | unknown hname hsound => exact ⟨d', second, .unknown hname hsound⟩
  | @field f node v habsent hread =>
    cases second with
    | unknown hname hsound => exact ⟨d, .unknown hname hsound, .field habsent hread⟩
    | @field g node' w habsent' hread' =>
      have hne : f ≠ g := by
        rintro rfl
        rw [Draft.has_set_self] at habsent'
        cases habsent'
      rw [Draft.has_set hne] at habsent'
      refine ⟨d.set g w, .field habsent' hread', ?_⟩
      rw [Draft.set_comm hne]
      exact .field ((Draft.has_set hne.symm w).trans habsent) hread

/-- So members can be taken in any order. -/
theorem collect_perm {members members' : List Member} (h : members.Perm members') {d d' : Draft}
    (collected : fields.collect d members = .ok d') : fields.collect d members' = .ok d' := by
  induction h generalizing d with
  | nil => exact collected
  | cons m _ ih =>
    obtain ⟨next, htaken, hrest⟩ := collect_cons_eq_ok_iff.mp collected
    exact collect_cons_eq_ok_iff.mpr ⟨next, htaken, ih hrest⟩
  | swap m m' members =>
    obtain ⟨next, hfirst, hrest⟩ := collect_cons_eq_ok_iff.mp collected
    obtain ⟨last, hsecond, hrest⟩ := collect_cons_eq_ok_iff.mp hrest
    obtain ⟨other, hfirst', hsecond'⟩ := hfirst.swap hsecond
    exact collect_cons_eq_ok_iff.mpr
      ⟨other, hfirst', collect_cons_eq_ok_iff.mpr ⟨last, hsecond', hrest⟩⟩
  | trans _ _ ih ih' => exact ih' (ih collected)

/-- A field that is given makes no difference to members that do not name it. -/
theorem take_set {m : Member} {f : Field} (hother : m.1 ≠ some f.name) (d : Draft) (v : f.Value) :
    take (d.set f v) m = (take d m).map fun next => next.set f v := by
  obtain ⟨key, node⟩ := m
  cases key with
  | none => rfl
  | some key =>
    cases hname : Field.named? key with
    | none =>
      simp only [take, hname]
      cases node.sound <;> rfl
    | some g =>
      obtain rfl := Field.eq_name_of_named? hname
      have hne : f ≠ g := by
        rintro rfl
        exact hother rfl
      simp only [take, hname, Draft.has_set hne, Draft.put_eq]
      cases d.has g with
      | true => rfl
      | false =>
        cases g.read node with
        | error fault => rfl
        | ok w => exact congrArg Except.ok (Draft.set_comm hne v w)

/-- A field that no member names can be given before the members or after them. -/
theorem collect_set {members : List Member} {f : Field} (hother : ∀ m ∈ members, m.1 ≠ some f.name)
    (d : Draft) (v : f.Value) :
    fields.collect (d.set f v) members =
      (fields.collect d members).map fun last => last.set f v := by
  induction members generalizing d with
  | nil => rfl
  | cons m members ih =>
    obtain ⟨hm, hmembers⟩ := List.forall_mem_cons.mp hother
    rw [collect_cons, collect_cons, take_set hm]
    cases take d m with
    | error fault => rfl
    | ok next => exact ih hmembers next

/-- A field stays absent while members are taken that do not name it. -/
theorem has_collect {members : List Member} {f : Field}
    (hother : ∀ m ∈ members, m.1 ≠ some f.name) {d d' : Draft}
    (collected : fields.collect d members = .ok d') : d'.has f = d.has f := by
  induction members generalizing d with
  | nil =>
    cases collected
    rfl
  | cons m members ih =>
    obtain ⟨hm, hmembers⟩ := List.forall_mem_cons.mp hother
    obtain ⟨next, htaken, hrest⟩ := collect_cons_eq_ok_iff.mp collected
    rw [ih hmembers hrest]
    cases htaken with
    | unknown => rfl
    | @field g node w =>
      have hne : g ≠ f := by
        rintro rfl
        exact hm rfl
      exact Draft.has_set hne w

/-- The settings that the members of an object make. -/
def ofMembers (members : List Member) : Except Fault Settings :=
  fields.collect .blank members >>= fun draft => draft.close.mapError missing

/-- A change to the members of an object that is not to make a difference. -/
inductive Change : List Member → List Member → Prop where
  /-- The members change places. -/
  | reorder {members members' : List Member} (h : members.Perm members') : Change members members'
  /-- A value under a name that is no field is added. -/
  | unknown {members : List Member} {key : String} {node : Node}
    (hname : Field.named? key = none) (hsound : node.sound = true) :
    Change members ((some key, node) :: members)
  /-- A field that was left out is added, with what it holds anyway. -/
  | default {members : List Member} (field : Field) {node : Node} {v : field.Value}
    (habsent : ∀ m ∈ members, m.1 ≠ some field.name) (hdefault : field.default? = some v)
    (hread : field.read node = .ok v) : Change members ((some field.name, node) :: members)

/-- Members in another order make the same settings. -/
theorem ofMembers_perm {members members' : List Member} (h : members.Perm members') {s : Settings}
    (made : ofMembers members = .ok s) : ofMembers members' = .ok s := by
  obtain ⟨d, hcollected, hclosed⟩ := Except.bind_eq_ok_iff.mp made
  exact Except.bind_eq_ok_iff.mpr ⟨d, collect_perm h hcollected, hclosed⟩

/-- A value under a name that is no field makes no difference. -/
theorem ofMembers_unknown {members : List Member} {key : String} {node : Node}
    (hname : Field.named? key = none) (hsound : node.sound = true) :
    ofMembers ((some key, node) :: members) = ofMembers members := by
  have htaken : take .blank (some key, node) = .ok .blank :=
    take_eq_ok_iff.mpr (.unknown hname hsound)
  rw [ofMembers, collect_cons, htaken]
  rfl

/-- A field that was left out makes no difference with what it holds anyway. -/
theorem ofMembers_default {members : List Member} {field : Field} {node : Node} {v : field.Value}
    (habsent : ∀ m ∈ members, m.1 ≠ some field.name) (hdefault : field.default? = some v)
    (hread : field.read node = .ok v) :
    ofMembers ((some field.name, node) :: members) = ofMembers members := by
  have hblank : Draft.blank.has field = false := by cases field <;> rfl
  have htaken : take .blank (some field.name, node) = .ok (Draft.blank.set field v) :=
    take_eq_ok_iff.mpr (.field hblank hread)
  have hset : fields.collect .blank ((some field.name, node) :: members) =
      (fields.collect .blank members).map fun last => last.set field v := by
    rw [collect_cons, htaken]
    exact collect_set habsent .blank v
  rw [ofMembers, ofMembers, hset]
  cases hcollected : fields.collect .blank members with
  | error fault => rfl
  | ok d =>
    have hleft : d.has field = false := (has_collect habsent hcollected).trans hblank
    simp only [Except.map, bind, Except.bind, Draft.close_set hdefault hleft]

/-- A change makes no difference to the settings. -/
theorem Change.ofMembers_eq_ok_iff {members members' : List Member} (h : Change members members')
    (s : Settings) : ofMembers members = .ok s ↔ ofMembers members' = .ok s := by
  cases h with
  | reorder h => exact ⟨ofMembers_perm h, ofMembers_perm h.symm⟩
  | unknown hname hsound => rw [ofMembers_unknown hname hsound]
  | default _ habsent hdefault hread => rw [ofMembers_default habsent hdefault hread]

/-- Objects that differ by changes, made or taken back in any combination. -/
def Alike : List Member → List Member → Prop := Relation.EqvGen Change

/-- One more change keeps two objects alike. -/
theorem Alike.tail {members members' members'' : List Member} (h : Alike members members')
    (change : Change members' members'') : Alike members members'' :=
  .trans _ _ _ h (.rel _ _ change)

/-- Objects that are alike give the same settings. -/
theorem Alike.ofMembers_eq_ok_iff {members members' : List Member} (h : Alike members members')
    (s : Settings) : ofMembers members = .ok s ↔ ofMembers members' = .ok s := by
  induction h with
  | rel _ _ h => exact h.ofMembers_eq_ok_iff s
  | refl _ => exact Iff.rfl
  | symm _ _ _ ih => exact ih.symm
  | trans _ _ _ _ _ ih ih' => exact ih.trans ih'

/-- A text spells an object with members in the order in which they are written. -/
def Spells (text : String) (members : List Member) : Prop :=
  Node.Document.ofText text = ⟨.object members true, true⟩

/-- A text gives the settings of the members that it spells. -/
theorem ofText_of_spells {text : String} {members : List Member} (h : Spells text members) :
    ofText text = ofMembers members := by
  have hnode : ∀ tooLong, ofNode tooLong (.object members true) = ofMembers members :=
    fun _ => rfl
  rw [ofText, h, Node.Document.read, hnode]
  cases ofMembers members <;> rfl

/-- Settings are read from a text, and so they are from every text whose members are alike. The same
profile is made of them, or they are refused in the same way. -/
theorem ofText_of_alike {text text' : String} {members members' : List Member} {s : Settings}
    (spelled : Spells text members) (spelled' : Spells text' members')
    (alike : Alike members members') (given : ofText text = .ok s) :
    ofText text' = .ok s ∧
      ∀ files, (ofText text').map (Profile.ofSettings files) =
        (ofText text).map (Profile.ofSettings files) := by
  rw [ofText_of_spells spelled] at given
  have hgiven : ofText text' = .ok s :=
    (ofText_of_spells spelled').trans ((alike.ofMembers_eq_ok_iff s).mp given)
  refine ⟨hgiven, fun files => ?_⟩
  rw [hgiven, ofText_of_spells spelled, given]

/-- Four members say as much as all of these in the opposite order. -/
theorem ofText_of_four_members :
    let given : Json.Members :=
      [("address", .text "http://127.0.0.1:8200"), ("secret_path", .text "secret/aws"),
        ("access_key_name", .text "ak"), ("secret_key_name", .text "sk")]
    let added : Json.Members :=
      [("kv_v2", .bool true), ("ttl_ms", .ofNat 6000), ("token", .null),
        ("comment", .object [("ttl_ms", .text "60")]), ("comment", .array [])]
    let s : Settings :=
      { Settings.initial with
        secretPath := "secret/aws", accessKeyName := "ak", secretKeyName := "sk" }
    ofText (Json.object given).print = .ok s ∧
      ofText (Json.object (added ++ given).reverse).print = .ok s := by
  intro given added s
  have hspelled : Spells (Json.object given).print (Json.writtenMembers given) :=
    Json.ofText_print (by simp [given, Json.IsWhole, Json.HasWhole])
  have hspelled' : Spells (Json.object (added ++ given).reverse).print
      (Json.writtenMembers (added ++ given)).reverse :=
    Json.ofText_print (by
      simp [given, added, Json.IsWhole, Json.AreWhole, Json.HasWhole, Json.ofNat,
        Json.Literal.maxWord])
  have hcomment : Alike (Json.writtenMembers given)
      (Json.writtenMembers (("comment", .array []) :: given)) :=
    .rel _ _ (.unknown (by decide) rfl)
  have hcomments :
      Alike (Json.writtenMembers given) (Json.writtenMembers (added.drop 3 ++ given)) :=
    hcomment.tail (.unknown (by decide) rfl)
  have htoken : Alike (Json.writtenMembers given) (Json.writtenMembers (added.drop 2 ++ given)) :=
    hcomments.tail (.default .token (by decide) rfl rfl)
  have httl : Alike (Json.writtenMembers given) (Json.writtenMembers (added.drop 1 ++ given)) :=
    htoken.tail (.default .ttl (by decide) rfl rfl)
  have hkvV2 : Alike (Json.writtenMembers given) (Json.writtenMembers (added ++ given)) :=
    httl.tail (.default .kvV2 (by decide) rfl rfl)
  have halike : Alike (Json.writtenMembers given) (Json.writtenMembers (added ++ given)).reverse :=
    hkvV2.tail (.reorder (List.reverse_perm _).symm)
  have hgiven : ofText (Json.object given).print = .ok s := (ofText_of_spells hspelled).trans rfl
  exact ⟨hgiven, (ofText_of_alike hspelled hspelled' halike hgiven).1⟩

end FreshKeys.Settings
