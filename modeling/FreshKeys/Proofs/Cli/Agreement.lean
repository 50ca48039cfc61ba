import FreshKeys.Cli.Program
import FreshKeys.Proofs.Files
import FreshKeys.Proofs.Settings.RoundTrip

/-!
# Flags and a settings file agree

A run whose settings come from its flags comes to the same when they are written to a file and the
run is given that file instead. The token is not in the file: it is lent by the flags again, under
the same condition under which they had given it.
-/

namespace FreshKeys

open Store (Script)

namespace Cli.Arguments

variable {a : Arguments} {s : Settings} {before after : Files} {path : String}

/-- Arguments without a settings file give what their flags say, in any directory. -/
theorem settings_eq_own (flags : a.config = none) (files : Files) :
    a.settings files = a.ownSettings := by
  rw [settings, flags]

/-- A token given inline is in the settings of the flags unless they name a token file. -/
theorem token_of_own (h : a.ownSettings = .ok s) :
    s.tokenFile = a.tokenFile ∧ s.token = if a.tokenFile.isSome then none else a.token := by
  unfold ownSettings at h
  split at h
  · cases h
  · cases h
  · cases h
    exact ⟨rfl, rfl⟩

/-- To the settings of the flags without their token, the flags lend it again. -/
theorem lendToken_untold (h : a.ownSettings = .ok s) : a.lendToken s.untold = s := by
  obtain ⟨hfile, htoken⟩ := token_of_own h
  cases hgiven : a.tokenFile with
  | none =>
    have hinline : a.token = s.token := by simp [htoken, hgiven]
    have hlends : (s.untold.token.isNone && s.untold.tokenFile.isNone) = true := by
      simp [Settings.untold, hfile, hgiven]
    rw [lendToken, if_pos hlends, hinline]
    rfl
  | some file =>
    have hnone : s.token = none := by simp [htoken, hgiven]
    have hkeeps : ¬ (s.untold.token.isNone && s.untold.tokenFile.isNone) = true := by
      simp [Settings.untold, hfile, hgiven]
    rw [lendToken, if_neg hkeeps, Settings.untold, ← hnone]

/-- Settings that were written are read as the flags give them. -/
theorem settingsIn_written (h : a.ownSettings = .ok s)
    (written : after.readBytes path = .ok s.print.toUTF8) :
    ({ a with config := some path } : Arguments).settings after = .ok s := by
  have hlend : ({ a with config := some path } : Arguments).lendToken s.untold = s :=
    lendToken_untold h
  simp only [settings, settingsIn, Files.readText_of_readBytes written, Settings.ofText_print,
    hlend]

/-- A run with a file that holds what the settings of the flags are written to finds the same
settings, makes the same profile or breaks the same rule, and ends in the same way. -/
theorem settings_written (flags : a.config = none) (given : a.settings before = .ok s)
    (written : after.readBytes path = .ok s.print.toUTF8) :
    let b : Arguments := { a with config := some path }
    b.settings after = .ok s ∧
      (b.settings after).map (Profile.ofSettings after) =
        (a.settings before).map (Profile.ofSettings after) ∧
      Cli.provider after b = Cli.provider after a ∧
      ∀ script ticks, runWith after script ticks b = runWith after script ticks a := by
  intro b
  have hown : a.ownSettings = .ok s := (settings_eq_own flags before).symm.trans given
  have hfile : b.settings after = .ok s := settingsIn_written hown written
  have hflags : a.settings after = .ok s := (settings_eq_own flags after).trans hown
  have hprovider : Cli.provider after b = Cli.provider after a := by
    rw [Cli.provider, Cli.provider, hfile, hflags]
  refine ⟨hfile, by rw [hfile, given], hprovider, fun script ticks => ?_⟩
  rw [runWith, runWith, hprovider]

/-- The token comes from the environment, and a run with the file finds it there again. -/
theorem settings_written_with_environment :
    let env : Environment := ⟨none, some "root"⟩
    let argv := ["--address", "http://127.0.0.1:8200", "--secret-path", "secret/aws"]
    ∃ (a : Arguments) (s : Settings),
      Arguments.parse env argv = .ok a ∧ a.settings .empty = .ok s ∧ s.token = some "root" ∧
      ({ a with config := some "settings.json" } : Arguments).settings
        ⟨[("settings.json", .file s.print.toUTF8)]⟩ = .ok s := by
  intro env argv
  let a := ofGiven env ⟨[(.address, "http://127.0.0.1:8200"), (.secretPath, "secret/aws")], []⟩
  let s : Settings :=
    { Settings.initial with
      token := some "root", secretPath := "secret/aws"
      accessKeyName := defaultAccessKeyName, secretKeyName := defaultSecretKeyName }
  have hparse : Arguments.parse env argv = .ok a := rfl
  have hgiven : a.settings .empty = .ok s := rfl
  have hname : Files.IsName "settings.json".toList :=
    ⟨by decide, by decide, by decide, by decide +kernel⟩
  have hread : (⟨[("settings.json", .file s.print.toUTF8)]⟩ : Files).readBytes "settings.json" =
      .ok s.print.toUTF8 :=
    Files.readBytes_of_name hname (by decide) (by decide) (by simp)
  exact ⟨a, s, hparse, hgiven, rfl, (settings_written rfl hgiven hread).1⟩

end Cli.Arguments

end FreshKeys
