import FreshKeys.Proofs.Profile.Acceptance

/-!
# Building a profile from its own values

The values of a profile are settings again. What is built from them differs from the profile at most
in the address and the secret path: each is trimmed once of blanks and once of slashes, in this
order, and a blank that stood behind a slash is at the end only then. The profile comes back exactly
when no such blank was left.
-/

namespace FreshKeys.Profile

open Text (isBlank isSlash StartsWithout EndsWithout)

/-- The values of a profile as settings, the token inline. -/
def toSettings (p : Profile) : Settings where
  address := p.address
  token := some p.token
  tokenFile := none
  secretPath := p.secretPath
  accessKeyName := p.accessKeyName
  secretKeyName := p.secretKeyName
  ttlMillis := UInt64.ofNat p.ttl
  timeoutMillis := UInt64.ofNat p.timeout
  fetchTimeoutMillis := UInt64.ofNat p.fetchTimeout
  caFile := p.caFile
  kvV2 := p.kvV2

/-- A profile whose address and secret path are trimmed once more. -/
def retrimmed (p : Profile) : Profile :=
  { p with address := normalAddress p.address, secretPath := normalPath p.secretPath }

/-- No blank is left where slashes were trimmed. -/
structure Settled (p : Profile) : Prop where
  address : EndsWithout isBlank p.address.toList
  pathStarts : StartsWithout isBlank p.secretPath.toList
  pathEnds : EndsWithout isBlank p.secretPath.toList

/-- An address is taken over as it is exactly if it has nothing at its ends to trim. -/
theorem normalAddress_eq_self_iff {address : String} : normalAddress address = address ↔
    (StartsWithout isBlank address.toList ∧ EndsWithout isBlank address.toList) ∧
      EndsWithout isSlash address.toList := by
  rw [← String.toList_inj, toList_normalAddress,
    Text.cut_cut_eq_self_iff (Text.strip_sublist _ _) fun t => (Text.dropEnd_opening isSlash t).sublist,
    Text.strip_eq_self_iff, Text.dropEnd_eq_self_iff]

/-- A secret path is taken over as it is exactly if it has nothing at its ends to trim. -/
theorem normalPath_eq_self_iff {path : String} : normalPath path = path ↔
    (StartsWithout isBlank path.toList ∧ EndsWithout isBlank path.toList) ∧
      StartsWithout isSlash path.toList ∧ EndsWithout isSlash path.toList := by
  rw [← String.toList_inj, toList_normalPath,
    Text.cut_cut_eq_self_iff (Text.strip_sublist _ _) (Text.strip_sublist isSlash),
    Text.strip_eq_self_iff, Text.strip_eq_self_iff]

/-- Nothing is left of a path that is slashes only, once its blanks are trimmed. -/
theorem normalPath_eq_empty_iff {path : String} :
    normalPath path = "" ↔ ∀ c ∈ Text.strip isBlank path.toList, isSlash c = true := by
  rw [← String.toList_eq_nil_iff, toList_normalPath, Text.strip_eq_nil_iff]

/-- A token that was trimmed is left alone. -/
theorem IsToken.trim_eq {token : String} (h : IsToken token) : Text.trim token = token := by
  rw [← String.toList_inj, Text.toList_trim, Text.strip_eq_self_iff]
  exact ⟨h.starts, h.ends⟩

/-- A sound profile is settled exactly when trimming it once more changes nothing. -/
theorem settled_iff {p : Profile} (hsound : Sound p) : Settled p ↔
    normalAddress p.address = p.address ∧ normalPath p.secretPath = p.secretPath := by
  rw [normalAddress_eq_self_iff, normalPath_eq_self_iff]
  constructor
  · rintro ⟨haddress, hstarts, hends⟩
    exact ⟨⟨⟨hsound.address.starts, haddress⟩, hsound.address.ends⟩, ⟨hstarts, hends⟩,
      hsound.path.starts, hsound.path.ends⟩
  · rintro ⟨⟨⟨-, haddress⟩, -⟩, ⟨hstarts, hends⟩, -⟩
    exact ⟨haddress, hstarts, hends⟩

/-- The durations of a profile that comes of settings are written down as they are. -/
theorem MadeFrom.toNat_ofNat {files : Files} {s : Settings} {p : Profile} (h : MadeFrom files s p) :
    (UInt64.ofNat p.ttl).toNat = p.ttl ∧ (UInt64.ofNat p.timeout).toNat = p.timeout ∧
      (UInt64.ofNat p.fetchTimeout).toNat = p.fetchTimeout := by
  rw [h.ttl, h.timeout, h.fetchTimeout, UInt64.ofNat_toNat, UInt64.ofNat_toNat, UInt64.ofNat_toNat]
  exact ⟨rfl, rfl, rfl⟩

/-- Of the values of a profile only the place of the store can be refused, and only its texts can
change. -/
theorem ofSettings_toSettings {files : Files} {s : Settings} {p : Profile}
    (haccepted : ofSettings files s = .ok p) (files' : Files) :
    ofSettings files' p.toSettings =
      (checkPlace (normalAddress p.address) (normalPath p.secretPath)).map fun _ => p.retrimmed := by
  obtain ⟨hsound, hmade⟩ := ofSettings_eq_ok_iff.mp haccepted
  obtain ⟨httl, htimeout, hfetch⟩ := hmade.toNat_ofNat
  have hnames : checkNames p.accessKeyName p.secretKeyName = .ok () :=
    checkNames_eq_ok_iff.mpr hsound.names
  have hdurations : checkDurations p.ttl p.timeout p.fetchTimeout = .ok () :=
    checkDurations_eq_ok_iff.mpr hsound.durations
  have htoken : resolveToken files' (some p.token) none = .ok p.token :=
    resolveToken_eq_ok_iff.mpr
      ⟨hsound.token, p.token, .inline p.token, hsound.token.trim_eq.symm⟩
  simp only [ofSettings, toSettings, httl, htimeout, hfetch, hnames, hdurations, htoken]
  cases checkPlace (normalAddress p.address) (normalPath p.secretPath) <;> rfl

/-- The values of a profile make a profile exactly when the place of the store is accepted. -/
theorem ofSettings_toSettings_eq_ok_iff {files : Files} {s : Settings} {p q : Profile}
    (haccepted : ofSettings files s = .ok p) (files' : Files) :
    ofSettings files' p.toSettings = .ok q ↔
      (IsAddress (normalAddress p.address) ∧ IsPath (normalPath p.secretPath)) ∧
        q = p.retrimmed := by
  have hplace : checkPlace (normalAddress p.address) (normalPath p.secretPath) = .ok () ↔ _ :=
    checkPlace_eq_ok_iff
  rw [ofSettings_toSettings haccepted files', ← hplace]
  cases checkPlace (normalAddress p.address) (normalPath p.secretPath) with
  | error rejection => exact iff_of_false nofun nofun
  | ok u => simp [Except.map, eq_comm]

/-- A rule that is broken gives its own reason. -/
theorem refuseIf_eq_error_iff {broken : Bool} {rejection e : Rejection} :
    refuseIf broken rejection = .error e ↔ broken = true ∧ rejection = e := by
  cases broken <;> simp [refuseIf]

/-- The place of the store is refused for an empty secret path when its address is accepted. -/
theorem checkPlace_eq_emptyPath_iff {address path : String} :
    checkPlace address path = .error (.empty Settings.Field.secretPath.name) ↔
      hasScheme address = true ∧ path = "" := by
  have hfields : Settings.Field.address.name ≠ Settings.Field.secretPath.name := by decide
  simp only [checkPlace, Except.bind_eq_error_iff, refuseIf_eq_error_iff, refuseIf_eq_ok_iff,
    Rejection.empty.injEq, hfields, and_false, false_or, reduceCtorEq, exists_const,
    String.isEmpty_eq_false_iff, Bool.not_eq_false', String.isEmpty_iff, and_true]
  exact ⟨And.right, fun h => ⟨ne_empty_of_hasScheme h.1, h⟩⟩

/-- The names are not refused for an empty secret path. -/
theorem checkNames_ne_emptyPath {accessKeyName secretKeyName : String} :
    checkNames accessKeyName secretKeyName ≠ .error (.empty Settings.Field.secretPath.name) := by
  have haccess : Settings.Field.accessKeyName.name ≠ Settings.Field.secretPath.name := by decide
  have hsecret : Settings.Field.secretKeyName.name ≠ Settings.Field.secretPath.name := by decide
  simp [checkNames, Except.bind_eq_error_iff, refuseIf_eq_error_iff, haccess, hsecret]

/-- The rules for durations do not blame an empty secret path. -/
theorem checkDurations_ne_emptyPath {ttl timeout fetchTimeout : Nat} :
    checkDurations ttl timeout fetchTimeout ≠ .error (.empty Settings.Field.secretPath.name) := by
  simp [checkDurations, Except.bind_eq_error_iff, refuseIf_eq_error_iff]

/-- Finding the token does not blame an empty secret path. -/
theorem resolveToken_ne_emptyPath {files : Files} {token tokenFile : Option String} :
    resolveToken files token tokenFile ≠ .error (.empty Settings.Field.secretPath.name) := by
  have htoken : Settings.Field.token.name ≠ Settings.Field.secretPath.name := by decide
  have htrimmed : ∀ text, trimmed text ≠ .error (.empty Settings.Field.secretPath.name) := by
    intro text
    simp [trimmed, Except.bind_eq_error_iff, refuseIf_eq_error_iff, htoken]
  intro h
  rcases token with _ | inline <;> rcases tokenFile with _ | path
  case none.none => cases h
  case some.some => cases h
  case some.none => exact htrimmed inline (resolveToken_inline files inline ▸ h)
  case none.some =>
    cases hread : files.readText path with
    | ok text => exact htrimmed text (resolveToken_file hread ▸ h)
    | error e => simp [resolveToken, loadToken, hread, Except.mapError, bind, Except.bind] at h

/-- Settings with an address that is accepted are refused for an empty secret path exactly when
slashes are all that is left of it without the blanks around it. -/
theorem ofSettings_eq_emptyPath_iff {files : Files} {s : Settings} :
    ofSettings files s = .error (.empty Settings.Field.secretPath.name) ↔
      IsAddress (normalAddress s.address) ∧
        ∀ c ∈ Text.strip isBlank s.secretPath.toList, isSlash c = true := by
  simp only [ofSettings, Except.bind_eq_error_iff, checkNames_ne_emptyPath,
    checkDurations_ne_emptyPath, resolveToken_ne_emptyPath, reduceCtorEq, and_false, exists_false,
    or_false, checkPlace_eq_emptyPath_iff, isAddress_normalAddress_iff, ← normalPath_eq_empty_iff]

/-- What is built from the values of a profile. -/
structure Rebuilt (p : Profile) (result : Except Rejection Profile) : Prop where
  /-- The profile comes back exactly when it has no blank where slashes were trimmed. -/
  same_iff : result = .ok p ↔ Settled p
  /-- The values are accepted exactly when the address and the secret path still obey their rules. -/
  accepted_iff :
    (∃ q, result = .ok q) ↔ IsAddress (normalAddress p.address) ∧ IsPath (normalPath p.secretPath)
  /-- Nothing but these two texts changes. -/
  retrimmed : ∀ q, result = .ok q → q = p.retrimmed

/-- What becomes of the values of any profile that comes of settings, and of settings whose secret
path is empty. -/
theorem rebuilt_of_accepted {files : Files} {s : Settings} {p : Profile}
    (haccepted : ofSettings files s = .ok p) :
    (∀ files', Rebuilt p (ofSettings files' p.toSettings)) ∧
      ∀ files' s', ofSettings files' s' = .error (.empty Settings.Field.secretPath.name) ↔
        IsAddress (normalAddress s'.address) ∧
          ∀ c ∈ Text.strip isBlank s'.secretPath.toList, isSlash c = true := by
  refine ⟨fun files' => ?_, fun files' s' => ofSettings_eq_emptyPath_iff⟩
  have hsound := (ofSettings_eq_ok_iff.mp haccepted).1
  have hagain : ∀ q, ofSettings files' p.toSettings = .ok q ↔ _ :=
    fun q => ofSettings_toSettings_eq_ok_iff haccepted files'
  constructor
  case same_iff =>
    rw [hagain p, settled_iff hsound]
    constructor
    · rintro ⟨-, hsame⟩
      exact ⟨(congrArg Profile.address hsame).symm, (congrArg Profile.secretPath hsame).symm⟩
    · rintro ⟨haddress, hpath⟩
      refine ⟨⟨haddress.symm ▸ hsound.address, hpath.symm ▸ hsound.path⟩, ?_⟩
      rw [retrimmed, haddress, hpath]
  case accepted_iff => simp [hagain]
  case retrimmed => exact fun q hq => ((hagain q).mp hq).2

/-- Blanks outside and slashes inside are trimmed for good. -/
theorem rebuilt_of_slashes_within_blanks :
    let p : Profile :=
      { address := "https://h", token := "t", secretPath := "a/b", accessKeyName := "ak"
        secretKeyName := "sk", ttl := 6000, fetchTimeout := 5000, timeout := 5000
        caFile := none, kvV2 := true }
    ofSettings .empty
        { Settings.initial with
          address := " https://h/ ", token := some "t\n", secretPath := " /a/b/ "
          accessKeyName := "ak", secretKeyName := "sk" } = .ok p ∧
      ofSettings .empty p.toSettings = .ok p := by
  intro p
  have haccepted : ofSettings .empty
      { Settings.initial with
        address := " https://h/ ", token := some "t\n", secretPath := " /a/b/ "
        accessKeyName := "ak", secretKeyName := "sk" } = .ok p := rfl
  have hsettled : Settled p := by
    constructor <;> decide
  exact ⟨haccepted, ((rebuilt_of_accepted haccepted).1 .empty).same_iff.mpr hsettled⟩

/-- A blank between two slashes is left: it is accepted as a secret path, and refused as empty when
it is given itself. -/
theorem refused_of_blank_within_slashes :
    let p : Profile :=
      { address := "https://h", token := "t", secretPath := " ", accessKeyName := "ak"
        secretKeyName := "sk", ttl := 6000, fetchTimeout := 5000, timeout := 5000
        caFile := none, kvV2 := true }
    ofSettings .empty
        { Settings.initial with
          address := "https://h", token := some "t", secretPath := "/ /"
          accessKeyName := "ak", secretKeyName := "sk" } = .ok p ∧
      ofSettings .empty p.toSettings = .error (.empty Settings.Field.secretPath.name) :=
  ⟨rfl, rfl⟩

end FreshKeys.Profile
