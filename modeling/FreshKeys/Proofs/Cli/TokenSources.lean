import FreshKeys.Proofs.Cli.Agreement
import FreshKeys.Proofs.Profile.Rebuilding

/-!
# Where the token of a run comes from

A token is given inline, by flag or in the environment, or in a file that a flag names, and a
settings file may name either source for itself. What the inline token counts for is said by whether
another one in its place would make a difference. Among flags a token file keeps it out. A settings
file keeps it out if it names a source, and the token file of the flags has no say then nor
otherwise.
-/

namespace FreshKeys

namespace Settings

/-- Whether settings name a source for a token. -/
def namesToken (s : Settings) : Bool := s.token.isSome || s.tokenFile.isSome

end Settings

namespace Profile

/-- The rules for the place of the store do not blame the source of a token. -/
theorem checkPlace_ne_tokenSource {address path : String} :
    checkPlace address path ≠ .error .tokenSource := by
  simp [checkPlace, Except.bind_eq_error_iff, refuseIf_eq_error_iff]

/-- The rules for names do not blame the source of a token. -/
theorem checkNames_ne_tokenSource {accessKeyName secretKeyName : String} :
    checkNames accessKeyName secretKeyName ≠ .error .tokenSource := by
  simp [checkNames, Except.bind_eq_error_iff, refuseIf_eq_error_iff]

/-- The rules for durations do not blame the source of a token. -/
theorem checkDurations_ne_tokenSource {ttl timeout fetchTimeout : Nat} :
    checkDurations ttl timeout fetchTimeout ≠ .error .tokenSource := by
  simp [checkDurations, Except.bind_eq_error_iff, refuseIf_eq_error_iff]

/-- The source of a token is refused when there is none or more than one. -/
theorem resolveToken_eq_tokenSource_iff {files : Files} {token tokenFile : Option String} :
    resolveToken files token tokenFile = .error .tokenSource ↔ token.isSome = tokenFile.isSome := by
  have htrimmed : ∀ text, trimmed text ≠ .error .tokenSource := by
    intro text
    simp [trimmed, Except.bind_eq_error_iff, refuseIf_eq_error_iff]
  rcases token with _ | inline <;> rcases tokenFile with _ | path
  case none.none => exact iff_of_true rfl rfl
  case some.some => exact iff_of_true rfl rfl
  case some.none => exact iff_of_false (resolveToken_inline files inline ▸ htrimmed inline) (by simp)
  case none.some =>
    refine iff_of_false (fun h => ?_) (by simp)
    cases hread : files.readText path with
    | ok text => exact htrimmed text (resolveToken_file hread ▸ h)
    | error e => simp [resolveToken, loadToken, hread, Except.mapError, bind, Except.bind] at h

/-- Settings that obey every rule but those for the token. -/
structure AcceptableApart (s : Settings) : Prop where
  address : IsAddress (normalAddress s.address)
  path : IsPath (normalPath s.secretPath)
  names : AreNames s.accessKeyName s.secretKeyName
  durations : AreDurations s.ttlMillis.toNat s.timeoutMillis.toNat s.fetchTimeoutMillis.toNat

/-- The source of the token is the last rule that settings can break. -/
theorem ofSettings_eq_tokenSource_iff {files : Files} {s : Settings} :
    ofSettings files s = .error .tokenSource ↔
      AcceptableApart s ∧ s.token.isSome = s.tokenFile.isSome := by
  simp only [ofSettings, Except.bind_eq_error_iff, checkPlace_ne_tokenSource,
    checkNames_ne_tokenSource, checkDurations_ne_tokenSource, reduceCtorEq, and_false, exists_false,
    or_false, false_or, checkPlace_eq_ok_iff, checkNames_eq_ok_iff, checkDurations_eq_ok_iff,
    resolveToken_eq_tokenSource_iff, exists_const]
  constructor
  · rintro ⟨⟨haddress, hpath⟩, hnames, hdurations, hsource⟩
    exact ⟨⟨haddress, hpath, hnames, hdurations⟩, hsource⟩
  · rintro ⟨⟨haddress, hpath, hnames, hdurations⟩, hsource⟩
    exact ⟨⟨haddress, hpath⟩, hnames, hdurations, hsource⟩

end Profile

namespace Cli.Arguments

variable {env : Environment} {argv : List String} {files : Files} {a : Arguments} {s : Settings}

/-- A file holds settings. -/
def Holds (files : Files) (path : String) (written : Settings) : Prop :=
  ∃ text, files.readText path = .ok text ∧ Settings.ofText text = .ok written

/-- A file holds one settings at most. -/
theorem Holds.unique {path : String} {w w' : Settings} (h : Holds files path w)
    (h' : Holds files path w') : w = w' := by
  obtain ⟨text, hread, hwritten⟩ := h
  obtain ⟨text', hread', hwritten'⟩ := h'
  cases hread.symm.trans hread'
  exact Except.ok.inj (hwritten.symm.trans hwritten')

/-- The same arguments with another inline token, or with none. -/
def withToken (a : Arguments) (token : Option String) : Arguments := { a with token }

/-- No inline token would make a difference to the settings. -/
def DisregardsToken (a : Arguments) (files : Files) : Prop :=
  ∀ token, (a.withToken token).settings files = a.settings files

/-- Settings with the inline token unless they name a source. -/
theorem lendToken_eq (a : Arguments) (w : Settings) :
    a.lendToken w = if w.namesToken then w else { w with token := a.token } := by
  rcases w with ⟨_, token, tokenFile, _⟩
  cases token <;> cases tokenFile <;> rfl

/-- Settings come from a file as it holds them, with the inline token if they name no source. -/
theorem settingsIn_eq_ok_iff {path : String} :
    a.settingsIn files path = .ok s ↔ ∃ w, Holds files path w ∧ s = a.lendToken w := by
  unfold settingsIn
  constructor
  · intro h
    split at h
    · cases h
    · rename_i text hread
      split at h
      · cases h
      · rename_i w hwritten
        exact ⟨w, ⟨text, hread, hwritten⟩, (Except.ok.inj h).symm⟩
  · rintro ⟨w, ⟨text, hread, hwritten⟩, rfl⟩
    simp only [hread, hwritten]

/-- Arguments with a settings file give what is in it. -/
theorem settings_eq_in {path : String} (file : a.config = some path) (files : Files) :
    a.settings files = a.settingsIn files path := by
  rw [settings, file]

/-- Another inline token changes the token of the settings that the flags give, and nothing else,
unless they name a token file. -/
theorem settings_withToken_own (flags : a.config = none) (h : a.ownSettings = .ok s)
    (token : Option String) :
    (a.withToken token).settings files =
      .ok { s with token := if a.tokenFile.isSome then none else token } := by
  have hflags : (a.withToken token).config = none := flags
  rw [settings_eq_own hflags]
  unfold ownSettings at h
  split at h
  · cases h
  · cases h
  · rename_i haddress hpath
    cases h
    simp only [withToken, ownSettings, haddress, hpath]

/-- Another inline token becomes the token of settings from a file that name no source. -/
theorem settings_withToken_in {path : String} {w : Settings} (file : a.config = some path)
    (hholds : Holds files path w) (token : Option String) :
    (a.withToken token).settings files =
      .ok (if w.namesToken then w else { w with token }) := by
  have hfile : (a.withToken token).config = some path := file
  rw [settings_eq_in hfile]
  exact settingsIn_eq_ok_iff.mpr ⟨w, hholds, (lendToken_eq (a.withToken token) w).symm⟩

/-- Settings come from the flags, or from a file with the inline token if it names no source. -/
theorem settings_origin (given : a.settings files = .ok s) :
    (a.config = none ∧ a.ownSettings = .ok s) ∨
      ∃ path w, a.config = some path ∧ Holds files path w ∧
        s = if w.namesToken then w else { w with token := a.token } := by
  cases hconfig : a.config with
  | none => exact .inl ⟨rfl, (settings_eq_own hconfig files).symm.trans given⟩
  | some path =>
    rw [settings_eq_in hconfig] at given
    obtain ⟨w, hholds, hlent⟩ := settingsIn_eq_ok_iff.mp given
    exact .inr ⟨path, w, rfl, hholds, hlent.trans (lendToken_eq a w)⟩

/-- Whether a source that counts is named besides the inline token: in the settings file if there is
one, else by the flag for a token file. -/
def NamesSource (a : Arguments) (files : Files) : Prop :=
  match a.config with
  | none => a.tokenFile.isSome
  | some path => ∃ w, Holds files path w ∧ w.namesToken

/-- Without a settings file, a source is named exactly by a token file among the flags. -/
theorem namesSource_own_iff (flags : a.config = none) :
    a.NamesSource files ↔ a.tokenFile.isSome := by
  rw [NamesSource, flags]

/-- With a settings file, a source is named exactly if the file names one. -/
theorem namesSource_in_iff {path : String} {w : Settings} (file : a.config = some path)
    (hholds : Holds files path w) : a.NamesSource files ↔ w.namesToken := by
  rw [NamesSource, file]
  constructor
  · rintro ⟨w', hholds', hnames⟩
    exact hholds.unique hholds' ▸ hnames
  · exact fun hnames => ⟨w, hholds, hnames⟩

/-- A source that counts keeps any inline token out. -/
theorem settings_withToken_of_source (given : a.settings files = .ok s)
    (named : a.NamesSource files) (token : Option String) :
    (a.withToken token).settings files = .ok s := by
  obtain ⟨flags, hown⟩ | ⟨path, w, file, hholds, rfl⟩ := settings_origin given
  · have hfile : a.tokenFile.isSome = true := (namesSource_own_iff flags).mp named
    obtain ⟨-, htoken⟩ := token_of_own hown
    rw [if_pos hfile] at htoken
    rw [settings_withToken_own flags hown, if_pos hfile, ← htoken]
  · have hnames : w.namesToken = true := (namesSource_in_iff file hholds).mp named
    rw [settings_withToken_in file hholds, if_pos hnames, if_pos hnames]

/-- If no source that counts is named, any inline token becomes the token. -/
theorem settings_withToken_of_no_source (given : a.settings files = .ok s)
    (unnamed : ¬ a.NamesSource files) (token : Option String) :
    (a.withToken token).settings files = .ok { s with token } ∧ s.tokenFile = none := by
  obtain ⟨flags, hown⟩ | ⟨path, w, file, hholds, rfl⟩ := settings_origin given
  · have hfile : ¬ a.tokenFile.isSome = true := (namesSource_own_iff flags).not.mp unnamed
    rw [settings_withToken_own flags hown, if_neg hfile, (token_of_own hown).1]
    exact ⟨rfl, by simpa using hfile⟩
  · have hnames : ¬ w.namesToken = true := (namesSource_in_iff file hholds).not.mp unnamed
    have hfile : w.tokenFile = none := by
      simp only [Settings.namesToken, Bool.or_eq_true, not_or] at hnames
      simpa using hnames.2
    rw [settings_withToken_in file hholds, if_neg hnames, if_neg hnames]
    exact ⟨rfl, hfile⟩

/-- The inline token is disregarded exactly when a source that counts is named. -/
theorem disregardsToken_iff (given : a.settings files = .ok s) :
    a.DisregardsToken files ↔ a.NamesSource files := by
  constructor
  · intro hdisregards
    by_contra hunnamed
    have hwith : ∀ token, s.token = token := by
      intro token
      have h := (settings_withToken_of_no_source given hunnamed token).1
      rw [hdisregards token, given] at h
      exact congrArg Settings.token (Except.ok.inj h)
    have hdifferent : (none : Option String) = some "" := (hwith none).symm.trans (hwith (some ""))
    cases hdifferent
  · exact fun hnamed token => (settings_withToken_of_source given hnamed token).trans given.symm

/-- The inline token is the token if no source that counts is named. -/
theorem token_of_no_source (given : a.settings files = .ok s) (unnamed : ¬ a.NamesSource files) :
    s.token = a.token ∧ s.tokenFile = none := by
  obtain ⟨hwith, hfile⟩ := settings_withToken_of_no_source given unnamed a.token
  have hsame : a.settings files = .ok { s with token := a.token } := hwith
  exact ⟨congrArg Settings.token (Except.ok.inj (given.symm.trans hsame)), hfile⟩

/-- Both sources are named in the settings file. -/
def NamesBoth (a : Arguments) (files : Files) : Prop :=
  ∃ path w, a.config = some path ∧ Holds files path w ∧ w.token.isSome ∧ w.tokenFile.isSome

/-- Settings do not name one source for a token when the settings file names two, or when none that
counts is named and there is no inline token. -/
theorem isSome_token_eq_iff (given : a.settings files = .ok s) :
    s.token.isSome = s.tokenFile.isSome ↔
      a.NamesBoth files ∨ ¬ a.NamesSource files ∧ a.token = none := by
  by_cases hnamed : a.NamesSource files
  · simp only [hnamed, not_true, false_and, or_false]
    obtain ⟨flags, hown⟩ | ⟨path, w, file, hholds, rfl⟩ := settings_origin given
    · have hfile : a.tokenFile.isSome = true := (namesSource_own_iff flags).mp hnamed
      obtain ⟨htokenFile, htoken⟩ := token_of_own hown
      rw [if_pos hfile] at htoken
      simp [NamesBoth, flags, htoken, htokenFile, hfile]
    · have hnames : w.namesToken = true := (namesSource_in_iff file hholds).mp hnamed
      rw [if_pos hnames]
      constructor
      · intro hsame
        have hboth : w.token.isSome = true ∧ w.tokenFile.isSome = true := by
          simpa [Settings.namesToken, hsame] using hnames
        exact ⟨path, w, file, hholds, hboth⟩
      · rintro ⟨path', w', file', hholds', htoken, htokenFile⟩
        cases file.symm.trans file'
        cases hholds.unique hholds'
        rw [htoken, htokenFile]
  · obtain ⟨htoken, htokenFile⟩ := token_of_no_source given hnamed
    have hboth : ¬ a.NamesBoth files := by
      rintro ⟨path, w, file, hholds, hw, -⟩
      exact hnamed ((namesSource_in_iff file hholds).mpr (by simp [Settings.namesToken, hw]))
    simp [hnamed, hboth, htoken, htokenFile]

/-- Where the token of settings comes from. -/
structure Sourced (a : Arguments) (files : Files) (s : Settings) : Prop where
  /-- Among flags a token file takes precedence. -/
  flags : a.config = none →
    s.tokenFile = a.tokenFile ∧ s.token = if a.tokenFile.isSome then none else a.token
  /-- A settings file keeps its own sources, and is lent the inline token if it names none. The
  token file of the flags is passed over. -/
  file : ∀ path, a.config = some path → ∃ w, Holds files path w ∧
    s = if w.namesToken then w else { w with token := a.token }
  /-- No inline token would make a difference exactly when a source that counts is named. -/
  disregards_iff : a.DisregardsToken files ↔ a.NamesSource files
  /-- The inline token is the only one if no source that counts is named. -/
  inline : ¬ a.NamesSource files → s.token = a.token ∧ s.tokenFile = none
  /-- The source of the token is blamed exactly when a settings file names two of them, or when none
  that counts is named and there is no inline token. -/
  blamed_iff : ∀ files', Profile.ofSettings files' s = .error .tokenSource ↔
    Profile.AcceptableApart s ∧ (a.NamesBoth files ∨ ¬ a.NamesSource files ∧ a.token = none)

/-- Whatever the command line, the environment and the files, the inline token is what the flag says
or else the environment, and the token of the settings comes from the first source that counts. -/
theorem sourced_of_parsed (parsed : Arguments.parse env argv = .ok a)
    (given : a.settings files = .ok s) :
    (∃ g, Given.nothing.scan argv = .ok g ∧ a.config = g.value? .config ∧
        a.tokenFile = g.value? .tokenFile ∧ a.token = (g.value? .token).or env.token) ∧
      a.Sourced files s := by
  constructor
  · cases hscan : Given.nothing.scan argv with
    | error e =>
      rw [parse, hscan] at parsed
      cases parsed
    | ok g =>
      rw [parse, hscan] at parsed
      cases parsed
      exact ⟨g, rfl, rfl, rfl, rfl⟩
  · constructor
    case flags => exact fun flags => token_of_own ((settings_eq_own flags files).symm.trans given)
    case file =>
      intro path file
      obtain ⟨flags, -⟩ | ⟨path', w, file', hholds, hlent⟩ := settings_origin given
      · cases flags.symm.trans file
      · cases file.symm.trans file'
        exact ⟨w, hholds, hlent⟩
    case disregards_iff => exact disregardsToken_iff given
    case inline => exact token_of_no_source given
    case blamed_iff =>
      intro files'
      rw [Profile.ofSettings_eq_tokenSource_iff, isSome_token_eq_iff given]

/-- A token file among flags keeps the token of the environment out. -/
theorem sourced_of_tokenFile :
    let env : Environment := ⟨none, some "s.inline"⟩
    let argv := ["--address", "http://vault:8200", "--secret-path=secret/aws",
      "--token-file", "vault-token"]
    ∃ (a : Arguments) (s : Settings),
      Arguments.parse env argv = .ok a ∧ a.settings .empty = .ok s ∧
        a.token = some "s.inline" ∧ a.DisregardsToken .empty ∧
        s.tokenFile = some "vault-token" ∧ s.token = none := by
  intro env argv
  let a := ofGiven env
    ⟨[(.address, "http://vault:8200"), (.secretPath, "secret/aws"), (.tokenFile, "vault-token")],
      []⟩
  let s : Settings :=
    { Settings.initial with
      address := "http://vault:8200", tokenFile := some "vault-token", secretPath := "secret/aws"
      accessKeyName := defaultAccessKeyName, secretKeyName := defaultSecretKeyName }
  have hparse : Arguments.parse env argv = .ok a := rfl
  have hgiven : a.settings .empty = .ok s := rfl
  obtain ⟨-, hsourced⟩ := sourced_of_parsed hparse hgiven
  exact ⟨a, s, hparse, hgiven, rfl, hsourced.disregards_iff.mpr rfl, hsourced.flags rfl⟩

/-- A settings file that names no source is lent the inline token although the flags name a token
file, and without an inline token the source is blamed. -/
theorem tokenFile_passed_over :
    let w : Settings :=
      { Settings.initial with
        secretPath := "secret/aws", accessKeyName := "ak", secretKeyName := "sk" }
    let files : Files := ⟨[("s.json", .file w.print.toUTF8), ("tok", .file "s.file".toUTF8)]⟩
    let argv := ["--config", "s.json", "--token-file", "tok"]
    (∃ a : Arguments, Arguments.parse ⟨none, none⟩ (argv ++ ["--token", "s.inline"]) = .ok a ∧
        a.tokenFile = some "tok" ∧ ¬ a.DisregardsToken files ∧
        a.settings files = .ok { w with token := some "s.inline" }) ∧
      ∃ a : Arguments, Arguments.parse ⟨none, none⟩ argv = .ok a ∧ a.tokenFile = some "tok" ∧
        a.settings files = .ok w ∧ Profile.ofSettings files w = .error .tokenSource := by
  intro w files argv
  let b := ofGiven ⟨none, none⟩ ⟨[(.config, "s.json"), (.tokenFile, "tok")], []⟩
  have hname : Files.IsName "s.json".toList := ⟨by decide, by decide, by decide, by decide +kernel⟩
  have hread : files.readBytes "s.json" = .ok w.print.toUTF8 :=
    Files.readBytes_of_name hname (by decide) (by decide) (by decide)
  have hholds : Holds files "s.json" w :=
    ⟨w.print, Files.readText_of_readBytes hread, Settings.ofText_print w⟩
  have hwith : ∀ token, (b.withToken token).settings files = .ok { w with token } :=
    fun token => settings_withToken_in rfl hholds token
  have hdiffer : ¬ (b.withToken (some "s.inline")).DisregardsToken files := by
    intro hdisregards
    have hsame : (b.withToken none).settings files = (b.withToken (some "s.inline")).settings files :=
      hdisregards none
    rw [hwith, hwith, Except.ok.injEq, Settings.mk.injEq] at hsame
    cases hsame.2.1
  have hinline : Arguments.parse ⟨none, none⟩ (argv ++ ["--token", "s.inline"]) =
      .ok (b.withToken (some "s.inline")) := rfl
  have hparse : Arguments.parse ⟨none, none⟩ argv = .ok (b.withToken none) := rfl
  have hblamed : ∀ files, Profile.ofSettings files w = .error .tokenSource := by
    intro files
    simp only [w]
    rfl
  exact ⟨⟨b.withToken (some "s.inline"), hinline, rfl, hdiffer, hwith (some "s.inline")⟩,
    b.withToken none, hparse, rfl, hwith none, hblamed files⟩

end Cli.Arguments

end FreshKeys
