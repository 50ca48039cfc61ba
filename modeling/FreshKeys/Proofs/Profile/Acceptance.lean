import FreshKeys.Profile
import FreshKeys.Proofs.Text.Trimming

/-!
# Which settings are accepted

Settings are accepted exactly when what is kept of them obeys every rule: the address names a
scheme and something after it, the secret path is more than slashes, the two names are different
texts, the durations lie within their bounds, and one source gives a token that is more than blanks.
The profile is then what was kept. The checks are made in an order, but which settings pass all of
them does not depend on it.
-/

namespace FreshKeys

/-- A computation in two parts succeeds exactly when both parts do. -/
theorem Except.bind_eq_ok_iff {E A B : Type} {x : Except E A} {f : A → Except E B} {b : B} :
    (x >>= f) = .ok b ↔ ∃ a, x = .ok a ∧ f a = .ok b := by
  cases x with
  | error e => simp [bind, Except.bind]
  | ok a => simp [bind, Except.bind]

/-- A computation in two parts fails in the first part or in the second. -/
theorem Except.bind_eq_error_iff {E A B : Type} {x : Except E A} {f : A → Except E B} {e : E} :
    (x >>= f) = .error e ↔ x = .error e ∨ ∃ a, x = .ok a ∧ f a = .error e := by
  cases x with
  | error e => simp [bind, Except.bind]
  | ok a => simp [bind, Except.bind]

/-- Failures by another name change no success. -/
theorem Except.mapError_eq_ok_iff {E E' A : Type} {x : Except E A} {f : E → E'} {b : A} :
    x.mapError f = .ok b ↔ x = .ok b := by
  cases x <;> simp [Except.mapError]

/-- A failure by another name comes of a failure that has the name. -/
theorem Except.mapError_eq_error_iff {E E' A : Type} {x : Except E A} {f : E → E'} {e' : E'} :
    x.mapError f = .error e' ↔ ∃ e, x = .error e ∧ f e = e' := by
  cases x <;> simp [Except.mapError]

namespace Profile

open Text (isBlank isSlash StartsWithout EndsWithout)

/-- An address as a profile holds it: a scheme with something after it, no blank at its start and
no slash at its end. -/
structure IsAddress (address : String) : Prop where
  scheme : ∃ rest ≠ [], address.toList = "http://".toList ++ rest ∨
    address.toList = "https://".toList ++ rest
  starts : StartsWithout isBlank address.toList
  ends : EndsWithout isSlash address.toList

/-- A secret path as a profile holds it: a text with a slash at neither end. -/
structure IsPath (path : String) : Prop where
  nonempty : path ≠ ""
  starts : StartsWithout isSlash path.toList
  ends : EndsWithout isSlash path.toList

/-- The names of two tracked fields. -/
structure AreNames (accessKeyName secretKeyName : String) : Prop where
  access : accessKeyName ≠ ""
  secret : secretKeyName ≠ ""
  different : accessKeyName ≠ secretKeyName

/-- Durations within their bounds, in milliseconds. -/
structure AreDurations (ttl timeout fetchTimeout : Nat) : Prop where
  ttl_pos : 0 < ttl
  ttl_le : ttl ≤ maxTtl
  timeout_pos : 0 < timeout
  fetchTimeout_pos : 0 < fetchTimeout

/-- A token as a profile holds it: a text with a blank at neither end. -/
structure IsToken (token : String) : Prop where
  nonempty : token ≠ ""
  starts : StartsWithout isBlank token.toList
  ends : EndsWithout isBlank token.toList

/-- What every profile obeys. -/
structure Sound (p : Profile) : Prop where
  address : IsAddress p.address
  path : IsPath p.secretPath
  names : AreNames p.accessKeyName p.secretKeyName
  durations : AreDurations p.ttl p.timeout p.fetchTimeout
  token : IsToken p.token

/-- The text that the one source of a token gives. -/
inductive Given (files : Files) : Option String → Option String → String → Prop where
  | inline (text : String) : Given files (some text) none text
  | file {path text : String} (hread : files.readText path = .ok text) :
    Given files none (some path) text

/-- What a profile takes over from settings. -/
structure MadeFrom (files : Files) (s : Settings) (p : Profile) : Prop where
  address : p.address = normalAddress s.address
  secretPath : p.secretPath = normalPath s.secretPath
  accessKeyName : p.accessKeyName = s.accessKeyName
  secretKeyName : p.secretKeyName = s.secretKeyName
  ttl : p.ttl = s.ttlMillis.toNat
  timeout : p.timeout = s.timeoutMillis.toNat
  fetchTimeout : p.fetchTimeout = s.fetchTimeoutMillis.toNat
  caFile : p.caFile = s.caFile
  kvV2 : p.kvV2 = s.kvV2
  token : ∃ text, Given files s.token s.tokenFile text ∧ p.token = Text.trim text

/-- Settings that obey every rule, the address and the secret path once they are trimmed. -/
structure Acceptable (files : Files) (s : Settings) : Prop where
  address : IsAddress (normalAddress s.address)
  path : IsPath (normalPath s.secretPath)
  names : AreNames s.accessKeyName s.secretKeyName
  durations : AreDurations s.ttlMillis.toNat s.timeoutMillis.toNat s.fetchTimeoutMillis.toNat
  token : ∃ text, Given files s.token s.tokenFile text ∧ ∃ c ∈ text.toList, isBlank c = false

/-- An address as a profile takes it over, as characters. -/
theorem toList_normalAddress (address : String) :
    (normalAddress address).toList =
      Text.dropEnd isSlash (Text.strip isBlank address.toList) := by
  rw [normalAddress, Text.trimSlashesEnd, String.toList_ofList, Text.toList_trim]

/-- A secret path as a profile takes it over, as characters. -/
theorem toList_normalPath (path : String) :
    (normalPath path).toList = Text.strip isSlash (Text.strip isBlank path.toList) := by
  rw [normalPath, Text.toList_trimSlashes, Text.toList_trim]

/-- A scheme is named at the start of an address. -/
theorem hasScheme_iff {address : String} : hasScheme address = true ↔
    ∃ rest, address.toList = "http://".toList ++ rest ∨
      address.toList = "https://".toList ++ rest := by
  simp only [hasScheme, Bool.or_eq_true, List.isPrefixOf_iff_prefix, exists_or]
  exact or_congr (exists_congr fun _ => eq_comm) (exists_congr fun _ => eq_comm)

/-- An address with a scheme is a text. -/
theorem ne_empty_of_hasScheme {address : String} (h : hasScheme address = true) : address ≠ "" := by
  rintro rfl
  cases h

/-- A trimmed address obeys the rule if it names a scheme: the slashes of the scheme itself would
have been trimmed away. -/
theorem isAddress_normalAddress_iff {address : String} :
    IsAddress (normalAddress address) ↔ hasScheme (normalAddress address) = true := by
  constructor
  · rintro ⟨⟨rest, -, hrest⟩, -, -⟩
    exact hasScheme_iff.mpr ⟨rest, hrest⟩
  · intro hscheme
    have hstarts : StartsWithout isBlank (normalAddress address).toList := by
      rw [toList_normalAddress]
      exact (Text.strip_bare isBlank address.toList).1.dropEnd isSlash
    have hends : EndsWithout isSlash (normalAddress address).toList := by
      rw [toList_normalAddress]
      exact Text.endsWithout_dropEnd isSlash _
    obtain ⟨rest, hrest⟩ := hasScheme_iff.mp hscheme
    refine ⟨⟨rest, ?_, hrest⟩, hstarts, hends⟩
    rintro rfl
    have hslash : isSlash '/' = false := by
      rcases hrest with hrest | hrest <;> exact hends '/' (by rw [hrest]; rfl)
    cases hslash

/-- A trimmed path obeys the rule if anything is left of it. -/
theorem isPath_normalPath_iff {path : String} :
    IsPath (normalPath path) ↔ normalPath path ≠ "" := by
  constructor
  · exact fun h => h.nonempty
  · intro hnonempty
    have hbare := Text.strip_bare isSlash (Text.strip isBlank path.toList)
    rw [← toList_normalPath] at hbare
    exact ⟨hnonempty, hbare.1, hbare.2⟩

/-- Something is left of a text that is more than blanks. -/
theorem trim_ne_empty_iff {text : String} :
    Text.trim text ≠ "" ↔ ∃ c ∈ text.toList, isBlank c = false := by
  have hempty : Text.trim text = "" ↔ ∀ c ∈ text.toList, isBlank c = true := by
    rw [← Text.strip_eq_nil_iff, ← Text.toList_trim, String.toList_eq_nil_iff]
  simp [hempty]

/-- A trimmed text is a token if anything is left of it. -/
theorem isToken_trim_iff {text : String} : IsToken (Text.trim text) ↔ Text.trim text ≠ "" := by
  constructor
  · exact fun h => h.nonempty
  · intro hnonempty
    have hbare := Text.strip_bare isBlank text.toList
    rw [← Text.toList_trim] at hbare
    exact ⟨hnonempty, hbare.1, hbare.2⟩

/-- A rule is kept exactly if it is not broken. -/
theorem refuseIf_eq_ok_iff {broken : Bool} {rejection : Rejection} {u : Unit} :
    refuseIf broken rejection = .ok u ↔ broken = false := by
  cases broken <;> simp [refuseIf]

/-- A rule is checked before the rest, and has to hold. -/
theorem refuseIf_bind_eq_ok_iff {A : Type} {broken : Bool} {rejection : Rejection}
    {rest : Unit → Except Rejection A} {a : A} :
    (refuseIf broken rejection >>= rest) = .ok a ↔ broken = false ∧ rest () = .ok a := by
  cases broken <;> simp [refuseIf, bind, Except.bind]

/-- The place of the store is accepted when the trimmed texts obey their rules. -/
theorem checkPlace_eq_ok_iff {address path : String} {u : Unit} :
    checkPlace (normalAddress address) (normalPath path) = .ok u ↔
      IsAddress (normalAddress address) ∧ IsPath (normalPath path) := by
  simp only [checkPlace, refuseIf_bind_eq_ok_iff, refuseIf_eq_ok_iff, isAddress_normalAddress_iff,
    isPath_normalPath_iff, String.isEmpty_eq_false_iff, Bool.not_eq_false']
  exact ⟨And.right, fun h => ⟨ne_empty_of_hasScheme h.1, h⟩⟩

/-- The names are accepted when they obey their rules. -/
theorem checkNames_eq_ok_iff {accessKeyName secretKeyName : String} {u : Unit} :
    checkNames accessKeyName secretKeyName = .ok u ↔ AreNames accessKeyName secretKeyName := by
  simp only [checkNames, refuseIf_bind_eq_ok_iff, refuseIf_eq_ok_iff, String.isEmpty_eq_false_iff,
    beq_eq_false_iff_ne]
  exact ⟨fun ⟨haccess, hsecret, hdifferent⟩ => ⟨haccess, hsecret, hdifferent⟩,
    fun ⟨haccess, hsecret, hdifferent⟩ => ⟨haccess, hsecret, hdifferent⟩⟩

/-- The durations are accepted when they are within their bounds. -/
theorem checkDurations_eq_ok_iff {ttl timeout fetchTimeout : Nat} {u : Unit} :
    checkDurations ttl timeout fetchTimeout = .ok u ↔ AreDurations ttl timeout fetchTimeout := by
  simp only [checkDurations, refuseIf_bind_eq_ok_iff, refuseIf_eq_ok_iff, beq_eq_false_iff_ne,
    decide_eq_false_iff_not, Nat.not_lt, ← Nat.pos_iff_ne_zero]
  exact ⟨fun ⟨hpos, hle, htimeout, hfetch⟩ => ⟨hpos, hle, htimeout, hfetch⟩,
    fun ⟨hpos, hle, htimeout, hfetch⟩ => ⟨hpos, hle, htimeout, hfetch⟩⟩

/-- What a source gives is trimmed, and has to leave something. -/
def trimmed (text : String) : Except Rejection String := do
  refuseIf (Text.trim text).isEmpty (.empty Settings.Field.token.name)
  .ok (Text.trim text)

/-- A token that is given inline is trimmed. -/
theorem resolveToken_inline (files : Files) (inline : String) :
    resolveToken files (some inline) none = trimmed inline := by
  simp only [resolveToken, trimmed, bind, Except.bind]

/-- A token in a file that can be read is trimmed. -/
theorem resolveToken_file {files : Files} {path text : String}
    (hread : files.readText path = .ok text) :
    resolveToken files none (some path) = trimmed text := by
  simp only [resolveToken, loadToken, hread, Except.mapError, trimmed, bind, Except.bind]

/-- No token comes of a file that cannot be read. -/
theorem resolveToken_unread {files : Files} {path : String} {e : FileError}
    (hread : files.readText path = .error e) (found : String) :
    resolveToken files none (some path) ≠ .ok found := by
  unfold resolveToken
  simp only [loadToken, hread]
  nofun

/-- Trimming gives a token exactly if it leaves something. -/
theorem trimmed_eq_ok_iff {text found : String} :
    trimmed text = .ok found ↔ IsToken found ∧ found = Text.trim text := by
  rw [trimmed, refuseIf_bind_eq_ok_iff, String.isEmpty_eq_false_iff, ← isToken_trim_iff,
    Except.ok.injEq]
  constructor
  · rintro ⟨htoken, rfl⟩
    exact ⟨htoken, rfl⟩
  · rintro ⟨htoken, rfl⟩
    exact ⟨htoken, rfl⟩

/-- A token is found when one source gives a text of which something is left. -/
theorem resolveToken_eq_ok_iff {files : Files} {token tokenFile : Option String} {found : String} :
    resolveToken files token tokenFile = .ok found ↔
      IsToken found ∧ ∃ text, Given files token tokenFile text ∧ found = Text.trim text := by
  constructor
  · intro hfound
    rcases token with _ | inline <;> rcases tokenFile with _ | path
    case none.none => cases hfound
    case some.some => cases hfound
    case some.none =>
      rw [resolveToken_inline, trimmed_eq_ok_iff] at hfound
      exact ⟨hfound.1, inline, .inline inline, hfound.2⟩
    case none.some =>
      cases hread : files.readText path with
      | error e => exact absurd hfound (resolveToken_unread hread found)
      | ok text =>
        rw [resolveToken_file hread, trimmed_eq_ok_iff] at hfound
        exact ⟨hfound.1, text, .file hread, hfound.2⟩
  · rintro ⟨htoken, text, hgiven, hfound⟩
    cases hgiven with
    | inline => exact (resolveToken_inline files text).trans (trimmed_eq_ok_iff.mpr ⟨htoken, hfound⟩)
    | file hread => exact (resolveToken_file hread).trans (trimmed_eq_ok_iff.mpr ⟨htoken, hfound⟩)

/-- A profile comes of settings exactly when it is made from them and obeys every rule. -/
theorem ofSettings_eq_ok_iff {files : Files} {s : Settings} {p : Profile} :
    ofSettings files s = .ok p ↔ Sound p ∧ MadeFrom files s p := by
  simp only [ofSettings, Except.bind_eq_ok_iff, checkPlace_eq_ok_iff, checkNames_eq_ok_iff,
    checkDurations_eq_ok_iff, resolveToken_eq_ok_iff, Except.ok.injEq]
  constructor
  · rintro ⟨-, ⟨haddress, hpath⟩, -, hnames, -, hdurations, token, ⟨htoken, hgiven⟩, rfl⟩
    exact ⟨⟨haddress, hpath, hnames, hdurations, htoken⟩,
      ⟨rfl, rfl, rfl, rfl, rfl, rfl, rfl, rfl, rfl, hgiven⟩⟩
  · obtain ⟨address, token, secretPath, accessKeyName, secretKeyName, ttl, fetchTimeout, timeout,
      caFile, kvV2⟩ := p
    rintro ⟨⟨haddress, hpath, hnames, hdurations, htoken⟩,
      ⟨rfl, rfl, rfl, rfl, rfl, rfl, rfl, rfl, rfl, hgiven⟩⟩
    exact ⟨(), ⟨haddress, hpath⟩, (), hnames, (), hdurations, token, ⟨htoken, hgiven⟩, rfl⟩

/-- The profile that settings would make, with the text that the source of their token gives. -/
def kept (s : Settings) (text : String) : Profile where
  address := normalAddress s.address
  token := Text.trim text
  secretPath := normalPath s.secretPath
  accessKeyName := s.accessKeyName
  secretKeyName := s.secretKeyName
  ttl := s.ttlMillis.toNat
  fetchTimeout := s.fetchTimeoutMillis.toNat
  timeout := s.timeoutMillis.toNat
  caFile := s.caFile
  kvV2 := s.kvV2

/-- What comes of settings, however they were put together. -/
structure Validated (files : Files) (s : Settings) (result : Except Rejection Profile) : Prop where
  /-- Every profile obeys the rules, and is made from the settings. -/
  sound : ∀ p, result = .ok p → Sound p ∧ MadeFrom files s p
  /-- Its token has one source. -/
  single : ∀ p, result = .ok p → (s.token.isSome ↔ s.tokenFile = none)
  /-- Settings are accepted exactly when they obey the rules. -/
  accepted_iff : (∃ p, result = .ok p) ↔ Acceptable files s

/-- Whatever the settings and the files, a profile that is obtained is sound, and settings that obey
the rules make one. -/
theorem validated (files : Files) (s : Settings) :
    Validated files s (ofSettings files s) ∧
      ∀ address token secretPath accessKeyName secretKeyName,
        Validated .empty
          { Settings.initial with
            address, token := some token, secretPath, accessKeyName, secretKeyName }
          (ofRequired address token secretPath accessKeyName secretKeyName) := by
  have hvalidated : ∀ files s, Validated files s (ofSettings files s) := by
    intro files s
    constructor
    case sound => exact fun p haccepted => ofSettings_eq_ok_iff.mp haccepted
    case single =>
      intro p haccepted
      obtain ⟨-, hmade⟩ := ofSettings_eq_ok_iff.mp haccepted
      obtain ⟨text, hgiven, -⟩ := hmade.token
      generalize s.token = token, s.tokenFile = tokenFile at hgiven ⊢
      cases hgiven <;> simp
    case accepted_iff =>
      constructor
      · rintro ⟨p, haccepted⟩
        obtain ⟨hsound, hmade⟩ := ofSettings_eq_ok_iff.mp haccepted
        obtain ⟨text, hgiven, htoken⟩ := hmade.token
        have hnonblank := trim_ne_empty_iff.mp (htoken ▸ hsound.token.nonempty)
        have hdurations := hsound.durations
        rw [hmade.ttl, hmade.timeout, hmade.fetchTimeout] at hdurations
        exact ⟨hmade.address ▸ hsound.address, hmade.secretPath ▸ hsound.path,
          hmade.accessKeyName ▸ hmade.secretKeyName ▸ hsound.names, hdurations,
          text, hgiven, hnonblank⟩
      · rintro ⟨haddress, hpath, hnames, hdurations, text, hgiven, hnonblank⟩
        have htoken := isToken_trim_iff.mpr (trim_ne_empty_iff.mpr hnonblank)
        exact ⟨kept s text, ofSettings_eq_ok_iff.mpr
          ⟨⟨haddress, hpath, hnames, hdurations, htoken⟩,
            ⟨rfl, rfl, rfl, rfl, rfl, rfl, rfl, rfl, rfl, text, hgiven, rfl⟩⟩⟩
  exact ⟨hvalidated files s, fun _ _ _ _ _ => hvalidated .empty _⟩

end Profile

end FreshKeys
