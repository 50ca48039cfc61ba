import FreshKeys.Proofs.Json.Spelling
import FreshKeys.Settings.Reading
import FreshKeys.Settings.Writing

/-!
# Settings that are written are read back

The text of settings is read as the same settings without their token, and the token leaves no
trace in the text.
-/

namespace FreshKeys.Settings

open Json (Fault Node)

/-- Settings without their token. -/
def untold (s : Settings) : Settings := { s with token := none }

/-- A word is an integer of 64 bits. -/
theorem isWhole_ofNat (w : UInt64) : (Json.ofNat w.toNat).IsWhole := by
  have hlt : w.toNat < Nat.pow 2 64 := w.toNat_lt
  have hmax : Json.Literal.maxWord = Nat.pow 2 64 - 1 := rfl
  constructor <;> omega

/-- A text that may be absent holds no numbers. -/
theorem isWhole_ofOption (text : Option String) : (Json.ofOption .text text).IsWhole := by
  cases text <;> trivial

/-- The numbers of settings are words. -/
theorem isWhole_members (s : Settings) : (Json.object s.members).IsWhole := by
  simp only [members, Json.IsWhole, Json.HasWhole, isWhole_ofNat, isWhole_ofOption, and_true]

/-- A field is found by its name. -/
theorem named?_name (field : Field) : Field.named? field.name = some field := by
  cases field <;> rfl

/-- A word is read back. -/
theorem readWord_written (w : UInt64) : Node.readWord (Json.ofNat w.toNat).written = .ok w := by
  simp [Node.readWord, Json.ofNat, Json.written]

/-- A path that may be absent is read back. -/
theorem readOption_written (read : Node → Except Fault String)
    (hread : ∀ text, read (.text (some text)) = .ok text) (path : Option String) :
    Node.readOption read (Json.ofOption .text path).written = .ok path := by
  cases path with
  | none => rfl
  | some path => simp [Node.readOption, Json.ofOption, Json.written, hread, Except.map]

/-- The tree of settings is read as the settings without their token. -/
theorem ofNode_written (tooLong : ℕ → Fault) (s : Settings) :
    ofNode tooLong (Json.object s.members).written = .ok s.untold := by
  -- no field comes twice, so every member is taken; the token is never among them
  have hcollect : fields.collect .blank (Json.writtenMembers s.members) =
      .ok ⟨some s.address, none, some s.tokenFile, some s.secretPath, some s.accessKeyName,
        some s.secretKeyName, some s.ttlMillis, some s.timeoutMillis, some s.fetchTimeoutMillis,
        some s.caFile, some s.kvV2⟩ := by
    have hpath := readOption_written Draft.readPath fun _ => rfl
    have htext : ∀ text, Draft.readText (Json.text text).written = .ok text := fun _ => rfl
    have hbool : ∀ b, Node.readBool (Json.bool b).written = .ok b := fun _ => rfl
    simp only [members, Json.writtenMembers, Node.Fields.collect, fields, named?_name, Draft.has,
      Draft.put, Draft.blank, htext, hpath, readWord_written, hbool, Except.map, bind, Except.bind,
      Option.isSome_none, Bool.false_eq_true, if_false]
  simp only [Json.written, ofNode, hcollect, bind, Except.bind, if_true]
  rfl

/-- The text of settings is read as the settings without their token. -/
theorem ofText_print (s : Settings) : ofText s.print = .ok s.untold := by
  rw [ofText, print, Json.ofText_print s.isWhole_members, Node.Document.read, ofNode_written]
  rfl

/-- Settings are read back from their text without their token, which leaves no trace in the text;
so to write what was read and to read it again takes the token away and nothing else. -/
theorem print_roundTrip (s : Settings) (token : Option String) (text : String) :
    ofText s.print = .ok s.untold ∧ ({ s with token } : Settings).print = s.print ∧
      (ofText text >>= fun read => ofText read.print) = (ofText text).map untold := by
  refine ⟨ofText_print s, print_token s token, ?_⟩
  cases ofText text with
  | error fault => rfl
  | ok read => exact ofText_print read

end FreshKeys.Settings
