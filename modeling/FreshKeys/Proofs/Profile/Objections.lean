import FreshKeys.Proofs.Cli.TokenSources

/-!
# What settings are refused for

The checks of everything but the token form a list, and settings are refused for the first of them
that is broken. Where the token would come from makes no difference then: neither a text nor a file,
there or not, can change the rejection or come before it. If no check is broken, the settings come
to what their token comes to, and for that an inline text counts as much as a file that holds it.
-/

namespace FreshKeys.Profile

variable {s : Settings}

/-- A check that was made: whether it is broken, and what it is refused with. -/
structure Check where
  broken : Bool
  rejection : Rejection

/-- The checks of everything but the token, in the order in which they are made. -/
def checks (s : Settings) : List Check :=
  [⟨(normalAddress s.address).isEmpty, .empty Settings.Field.address.name⟩,
    ⟨!hasScheme (normalAddress s.address), .invalidAddress (normalAddress s.address)⟩,
    ⟨(normalPath s.secretPath).isEmpty, .empty Settings.Field.secretPath.name⟩,
    ⟨s.accessKeyName.isEmpty, .empty Settings.Field.accessKeyName.name⟩,
    ⟨s.secretKeyName.isEmpty, .empty Settings.Field.secretKeyName.name⟩,
    ⟨s.accessKeyName == s.secretKeyName, .duplicateKeyName s.accessKeyName⟩,
    ⟨s.ttlMillis.toNat == 0, .zeroDuration Settings.Field.ttl.name⟩,
    ⟨maxTtl < s.ttlMillis.toNat,
      .durationTooLong Settings.Field.ttl.name (maxTtl * Nat.pow 10 6)⟩,
    ⟨s.timeoutMillis.toNat == 0, .zeroDuration Settings.Field.timeout.name⟩,
    ⟨s.fetchTimeoutMillis.toNat == 0, .zeroDuration Settings.Field.fetchTimeout.name⟩]

/-- They do not look at where the token comes from. -/
theorem checks_source (s : Settings) (token tokenFile : Option String) :
    checks { s with token, tokenFile } = checks s := rfl

/-- The rejection of the first broken check of a list. -/
def objection? (checks : List Check) : Option Rejection :=
  (checks.find? Check.broken).map Check.rejection

/-- Makes checks one after the other. -/
def refuse : List Check → Except Rejection Unit
  | [] => .ok ()
  | check :: rest => do
    refuseIf check.broken check.rejection
    refuse rest

/-- Checks are refused for the first broken one. -/
theorem refuse_eq (checks : List Check) :
    refuse checks = (objection? checks).elim (.ok ()) .error := by
  induction checks with
  | nil => rfl
  | cons check rest ih =>
    obtain ⟨broken, rejection⟩ := check
    cases broken with
    | true => rfl
    | false => exact ih

/-- The profile of settings with a token that was found. -/
def withToken (s : Settings) (token : String) : Profile := { kept s token with token }

/-- Settings are refused for their first broken check, and otherwise come to what their token comes
to. -/
theorem ofSettings_eq (files : Files) (s : Settings) :
    ofSettings files s =
      (objection? (checks s)).elim ((resolveToken files s.token s.tokenFile).map (withToken s))
        .error := by
  have hchecked : ofSettings files s =
      refuse (checks s) >>= fun _ =>
        (resolveToken files s.token s.tokenFile).map (withToken s) := by
    simp only [ofSettings, checkPlace, checkNames, checkDurations, refuse, checks, bind_assoc]
    rfl
  rw [hchecked, refuse_eq]
  cases objection? (checks s) <;> rfl

/-- If a check is broken, the objection is to the first one. -/
theorem objection?_of_broken {checks : List Check}
    (broken : ∃ check ∈ checks, check.broken = true) :
    ∃ before check after, checks = before ++ check :: after ∧
      (∀ earlier ∈ before, earlier.broken = false) ∧ check.broken = true ∧
        objection? checks = some check.rejection := by
  obtain ⟨check, hfirst⟩ := Option.isSome_iff_exists.mp (List.find?_isSome.mpr broken)
  obtain ⟨hbroken, before, after, hchecks, hbefore⟩ := List.find?_eq_some_iff_append.mp hfirst
  refine ⟨before, check, after, hchecks, fun earlier hearlier => ?_, hbroken, ?_⟩
  · simpa using hbefore earlier hearlier
  · rw [objection?, hfirst]
    rfl

/-- No check is broken exactly when the settings obey every rule but those for the token. -/
theorem checks_unbroken_iff : (∀ check ∈ checks s, check.broken = false) ↔ AcceptableApart s := by
  simp only [checks, List.forall_mem_cons, List.not_mem_nil, IsEmpty.forall_iff, implies_true,
    and_true, String.isEmpty_eq_false_iff, Bool.not_eq_false', beq_eq_false_iff_ne,
    decide_eq_false_iff_not, Nat.not_lt, ← Nat.pos_iff_ne_zero]
  constructor
  · rintro ⟨-, hscheme, hpath, haccess, hsecret, hdifferent, httl, hmax, htimeout, hfetch⟩
    exact ⟨isAddress_normalAddress_iff.mpr hscheme, isPath_normalPath_iff.mpr hpath,
      ⟨haccess, hsecret, hdifferent⟩, ⟨httl, hmax, htimeout, hfetch⟩⟩
  · rintro ⟨haddress, hpath, ⟨haccess, hsecret, hdifferent⟩, ⟨httl, hmax, htimeout, hfetch⟩⟩
    have hscheme := isAddress_normalAddress_iff.mp haddress
    exact ⟨ne_empty_of_hasScheme hscheme, hscheme, hpath.nonempty, haccess, hsecret, hdifferent,
      httl, hmax, htimeout, hfetch⟩

/-- Then there is no objection. -/
theorem objection?_of_acceptable (h : AcceptableApart s) : objection? (checks s) = none := by
  have hnone : (checks s).find? Check.broken = none := by
    rw [List.find?_eq_none]
    intro check hcheck
    rw [checks_unbroken_iff.mpr h check hcheck]
    exact Bool.false_ne_true
  rw [objection?, hnone, Option.map_none]

/-- What settings that differ in their token alone have in common. -/
structure TokenLast (s : Settings) : Prop where
  /-- A text counts for the same inline and in a file. -/
  sources : ∀ files files' path text, files.readBytes path = .ok text.toUTF8 →
    ofSettings files' { s with token := some text, tokenFile := none } =
      ofSettings files { s with token := none, tokenFile := some path }
  /-- If a check is broken, the first such check decides. -/
  refused : (∃ check ∈ checks s, check.broken = true) →
    ∃ before check after, checks s = before ++ check :: after ∧
      (∀ earlier ∈ before, earlier.broken = false) ∧ check.broken = true ∧
        ∀ files token tokenFile,
          ofSettings files { s with token, tokenFile } = .error check.rejection
  /-- A check is broken exactly when another rule than those for the token is. -/
  broken_iff : (∃ check ∈ checks s, check.broken = true) ↔ ¬ AcceptableApart s
  /-- Without a broken check the token decides. -/
  unrefused : AcceptableApart s → ∀ files token tokenFile,
    ofSettings files { s with token, tokenFile } =
      (resolveToken files token tokenFile).map (withToken s)

/-- Settings are refused for anything else before their token is looked for, and where a text that
is their token comes from makes no difference. -/
theorem tokenLast (s : Settings) : TokenLast s where
  sources := by
    intro files files' path text hread
    rw [ofSettings_eq, ofSettings_eq, checks_source, checks_source, resolveToken_inline,
      resolveToken_file (Files.readText_of_readBytes hread)]
    rfl
  refused := by
    intro hbroken
    obtain ⟨before, check, after, hchecks, hbefore, hcheck, hobjection⟩ :=
      objection?_of_broken hbroken
    refine ⟨before, check, after, hchecks, hbefore, hcheck, fun files token tokenFile => ?_⟩
    rw [ofSettings_eq, checks_source, hobjection]
    rfl
  broken_iff := by
    rw [← checks_unbroken_iff]
    simp
  unrefused := by
    intro hacceptable files token tokenFile
    rw [ofSettings_eq, checks_source, objection?_of_acceptable hacceptable]
    rfl

example :
    ofSettings .empty
      { Settings.initial with
        tokenFile := some "missing", secretPath := "secret/aws", accessKeyName := "ak"
        secretKeyName := "sk", ttlMillis := 0 } = .error (.zeroDuration "ttl_ms") := by
  decide +kernel

end FreshKeys.Profile
