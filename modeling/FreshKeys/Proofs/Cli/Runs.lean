import FreshKeys.Cli.Program
import FreshKeys.Proofs.Profile.Acceptance
import FreshKeys.Proofs.Store.Engines
import FreshKeys.Proofs.Store.Likeness

/-!
# Runs that do not watch

A run that does not watch goes through its stages once. It prints the pair that a retrieval from
the same store comes to, or nothing at all, and then it tells the error of the first stage that
failed. Nothing is sent before the last stage, and one request at most in it. Without `--export`
neither the exit code nor what is printed depends on what may not be shown of the pair.
-/

namespace FreshKeys

/-- A name that is known is that of its kind. -/
theorem Registry.eq_name_of_lookup {name : String} {kind : Kind} (found : lookup name = .ok kind) :
    name = kind.name := by
  unfold lookup at found
  split at found
  case h_1 hfind =>
    cases found
    have hname := List.find?_some hfind
    exact (beq_iff_eq.mp hname).symm
  case h_2 => cases found

/-- So a provider is created under the name of its kind alone. -/
theorem Registry.eq_name_of_create {files : Files} {name : String} {p : Profile} {vault : Vault}
    (created : create files name p = .ok vault) : name = Kind.vault.name := by
  obtain ⟨⟨⟩, hlookup, -⟩ := Except.bind_eq_ok_iff.mp created
  exact eq_name_of_lookup hlookup

namespace Cli

open Json.Node (Document)
open Store (Answer RecordAlike Request Script)

/-- The stages before the fetch succeed: settings are found and accepted, and of the profile a
provider is created. -/
structure Creates (files : Files) (a : Arguments) (p : Profile) (vault : Vault) : Prop where
  accepted : ∃ s, a.settings files = .ok s ∧ Profile.ofSettings files s = .ok p
  created : Registry.create files a.provider p = .ok vault

/-- One of them fails, the ones before it succeed, and this is its error. -/
inductive FailsEarly (files : Files) (a : Arguments) : RunError → Prop where
  | source {error : SourceError} (h : a.settings files = .error error) :
    FailsEarly files a (.source error)
  | settings {s : Settings} {rejection : Rejection} (sourced : a.settings files = .ok s)
      (h : Profile.ofSettings files s = .error rejection) :
    FailsEarly files a (.settings rejection)
  | creation {s : Settings} {p : Profile} {error : CreationError}
      (sourced : a.settings files = .ok s) (accepted : Profile.ofSettings files s = .ok p)
      (h : Registry.create files a.provider p = .error error) :
    FailsEarly files a (.creation error)

/-- The one get of a run, through the handle over its provider. -/
def onlyGet (vault : Vault) (answer : Answer) : Turn :=
  (vault.call ⟨0, 0, Vault.handle⟩ answer).2

/-- What the stages of a run come to, in their order: the error of the first one that fails, or a
pair. The answer is the one that a request would meet. -/
inductive Comes (files : Files) (answer : Answer) (a : Arguments) :
    Except RunError KeyPair → Prop where
  | early {error : RunError} (h : FailsEarly files a error) : Comes files answer a (.error error)
  | unfetched {p : Profile} {vault : Vault} {failure : Failure} (creates : Creates files a p vault)
      (h : (onlyGet vault answer).outcome = .failure failure) :
    Comes files answer a (.error (.fetch failure))
  | fetched {p : Profile} {vault : Vault} {pair : KeyPair} (creates : Creates files a p vault)
      (h : (onlyGet vault answer).outcome = .pair pair) :
    Comes files answer a (.ok pair)

variable {files : Files} {a : Arguments} {p : Profile} {vault : Vault} {answer answer' : Answer}

/-- The provider of a run is there exactly when the stages before the fetch succeed. -/
theorem provider_eq_ok_iff : provider files a = .ok vault ↔ ∃ p, Creates files a p vault := by
  simp only [provider, Except.bind_eq_ok_iff, Except.mapError_eq_ok_iff]
  constructor
  · rintro ⟨s, hsourced, p, haccepted, hcreated⟩
    exact ⟨p, ⟨s, hsourced, haccepted⟩, hcreated⟩
  · rintro ⟨p, ⟨s, hsourced, haccepted⟩, hcreated⟩
    exact ⟨s, hsourced, p, haccepted, hcreated⟩

/-- Otherwise there is the error of the first one that fails. -/
theorem provider_eq_error_iff {error : RunError} :
    provider files a = .error error ↔ FailsEarly files a error := by
  simp only [provider, Except.bind_eq_error_iff, Except.mapError_eq_ok_iff,
    Except.mapError_eq_error_iff]
  constructor
  · rintro (⟨e, he, rfl⟩ | ⟨s, hs, ⟨r, hr, rfl⟩ | ⟨p, hp, e, he, rfl⟩⟩)
    · exact .source he
    · exact .settings hs hr
    · exact .creation hs hp he
  · rintro (h | ⟨hs, h⟩ | ⟨hs, hp, h⟩)
    · exact .inl ⟨_, h, rfl⟩
    · exact .inr ⟨_, hs, .inl ⟨_, h, rfl⟩⟩
    · exact .inr ⟨_, hs, .inr ⟨_, hp, _, h, rfl⟩⟩

/-- The vault of a run is fresh, and its client is the one that the profile asks for. -/
theorem Creates.eq_fresh (h : Creates files a p vault) : vault = .fresh (Vault.clientFor p) p := by
  obtain ⟨-, hcreated⟩ := h
  rw [Registry.eq_name_of_create hcreated] at hcreated
  exact Vault.eq_fresh_of_create hcreated

/-- Its only get comes to what any first call comes to, and sends what the profile asks for. -/
theorem Creates.onlyGet_eq (h : Creates files a p vault) (call : Refresh.Call) (answer : Answer) :
    (onlyGet vault answer).outcome = (vault.call call answer).2.outcome ∧
      (onlyGet vault answer).request = Vault.requestFor p := by
  obtain rfl := h.eq_fresh
  obtain ⟨_, _, -, -, hget⟩ :=
    Vault.call_fresh (Vault.clientFor p) p ⟨0, 0, Vault.handle⟩ answer
  obtain ⟨_, _, -, -, hcall⟩ := Vault.call_fresh (Vault.clientFor p) p call answer
  rw [onlyGet, hget, hcall]
  exact ⟨rfl, Store.Client.request_of_read (Vault.clientFor p) p.secretPath answer⟩

/-- The result of a run whose get comes to an outcome. -/
def resultOf : Outcome → Except RunError KeyPair
  | .pair pair => .ok pair
  | .failure failure => .error (.fetch failure)

/-- The stages of a run, one after the other. -/
def result (files : Files) (answer : Answer) (a : Arguments) : Except RunError KeyPair :=
  provider files a >>= fun vault => resultOf (onlyGet vault answer).outcome

/-- What is sent in a run. -/
def sent (files : Files) (answer : Answer) (a : Arguments) : List Request :=
  match provider files a with
  | .error _ => []
  | .ok vault => (onlyGet vault answer).request.toList

/-- Once a provider is created, the result is what its only get comes to. -/
theorem result_of_creates (h : Creates files a p vault) :
    result files answer a = resultOf (onlyGet vault answer).outcome := by
  rw [result, provider_eq_ok_iff.mpr ⟨p, h⟩]
  rfl

/-- The stages come to their result, and to nothing else. -/
theorem comes_iff {r : Except RunError KeyPair} :
    Comes files answer a r ↔ result files answer a = r := by
  constructor
  · rintro (h | ⟨hcreates, h⟩ | ⟨hcreates, h⟩)
    · rw [result, provider_eq_error_iff.mpr h]
      rfl
    · rw [result_of_creates hcreates, h]
      rfl
    · rw [result_of_creates hcreates, h]
      rfl
  · rintro rfl
    cases hprovider : provider files a with
    | error error =>
      rw [result, hprovider]
      exact .early (provider_eq_error_iff.mp hprovider)
    | ok vault =>
      obtain ⟨p, hcreates⟩ := provider_eq_ok_iff.mp hprovider
      rw [result_of_creates hcreates]
      cases houtcome : (onlyGet vault answer).outcome with
      | failure failure => exact .unfetched hcreates houtcome
      | pair pair => exact .fetched hcreates houtcome

/-- Once a provider is created, what is sent is the one request of its profile, if it can be. -/
theorem sent_of_creates (h : Creates files a p vault) :
    sent files answer a = (Vault.requestFor p).toList := by
  rw [sent, provider_eq_ok_iff.mpr ⟨p, h⟩]
  exact congrArg Option.toList (h.onlyGet_eq ⟨0, 0, .retrieve⟩ answer).2

/-- Without a provider nothing is sent. -/
theorem sent_of_not_creates (h : ∀ p vault, ¬ Creates files a p vault) :
    sent files answer a = [] := by
  unfold sent
  cases hprovider : provider files a with
  | error error => rfl
  | ok vault =>
    obtain ⟨p, hcreates⟩ := provider_eq_ok_iff.mp hprovider
    exact absurd hcreates (h p vault)

/-- The ending of a run with a result that does not watch. -/
def Ending.ofResult (exporting : Bool) (requests : List Request) :
    Except RunError KeyPair → Ending
  | .ok pair => ⟨0, ⟨report exporting pair, requests⟩, ""⟩
  | .error error => .failed error requests

/-- A run has sent the requests that its ending is made with. -/
theorem Ending.requests_ofResult (exporting : Bool) (requests : List Request)
    (r : Except RunError KeyPair) : (ofResult exporting requests r).trace.requests = requests := by
  cases r <;> rfl

/-- A run that does not watch ends with the result of its stages. -/
theorem runWith_eq_ofResult (once : a.watch = false) (files : Files) (script : Script)
    (ticks : List ℕ) :
    runWith files script ticks a =
      .ofResult a.exporting (sent files script.next a) (result files script.next a) := by
  unfold runWith sent result
  cases provider files a with
  | error error => rfl
  | ok vault =>
    simp only [Watcher.fetch, bind, Except.bind, onlyGet, once]
    generalize (vault.call ⟨0, 0, Vault.handle⟩ script.next).2 = turn
    obtain ⟨outcome, request, notes⟩ := turn
    cases outcome <;> rfl

/-- Something is printed for every pair. -/
theorem report_ne_empty (exporting : Bool) (pair : KeyPair) : report exporting pair ≠ "" := by
  rw [Ne, ← String.toList_inj]
  cases exporting <;> simp [report]

/-- Without `--export` only what may be shown of a pair is printed. -/
theorem report_veil (pair : KeyPair) : report false pair.veil = report false pair := by
  have hmasked : pair.veil.maskedId = pair.maskedId := pair.maskedId_veil
  simp only [report, hmasked]
  rfl

/-- So the code and what is printed are settled by what may be shown of the result. -/
theorem Ending.shown_ofResult (requests : List Request) (r : Except RunError KeyPair) :
    ((ofResult false requests r).code, (ofResult false requests r).trace.out) =
      ((r.toOption.map KeyPair.veil).map fun pair => (0, report false pair)).getD (1, "") := by
  cases r with
  | error error => rfl
  | ok pair => exact congrArg (Prod.mk 0) (report_veil pair).symm

/-- What may be shown of the pair is the same with answers that are alike. -/
theorem shown_result_eq (h : ∀ p vault, Creates files a p vault → answer.Alike p answer') :
    (result files answer a).toOption.map KeyPair.veil =
      (result files answer' a).toOption.map KeyPair.veil := by
  have hpair : ∀ outcome : Outcome, (resultOf outcome).toOption = outcome.pair? := by
    rintro (_ | _) <;> rfl
  cases hprovider : provider files a with
  | error error =>
    rw [result, result, hprovider]
    rfl
  | ok vault =>
    obtain ⟨p, hcreates⟩ := provider_eq_ok_iff.mp hprovider
    have halike := h p vault hcreates
    rw [result_of_creates hcreates, result_of_creates hcreates, hpair, hpair]
    obtain rfl := hcreates.eq_fresh
    exact Vault.shown_eq_of_alike rfl halike ⟨0, 0, Vault.handle⟩

/-- What a run comes to that does not watch. -/
structure AllOrNothing (env : Environment) (argv : List String) (a : Arguments) (files : Files)
    (script : Script) (ticks : List ℕ) : Prop where
  /-- The stages come to one result. -/
  stages : ∃! r, Comes files script.next a r
  zero_iff : (run env files script ticks argv).code = 0 ↔
    ∃ pair, Comes files script.next a (.ok pair)
  printed_iff : (run env files script ticks argv).trace.out ≠ "" ↔
    (run env files script ticks argv).code = 0
  reported : ∀ pair, Comes files script.next a (.ok pair) →
    (run env files script ticks argv).trace.out = report a.exporting pair ∧
      (run env files script ticks argv).error = ""
  failed : ∀ error, Comes files script.next a (.error error) →
    (run env files script ticks argv).code = 1 ∧
      (run env files script ticks argv).trace.out = "" ∧
        (run env files script ticks argv).error = errorText error.causes ++ "\n"
  /-- The last stage comes to what a retrieval from the same store comes to. -/
  retrieved : ∀ outcome, Comes files script.next a (resultOf outcome) ↔
    ∃ p vault, Creates files a p vault ∧
      (vault.call ⟨0, 0, .retrieve⟩ script.next).2.outcome = outcome
  /-- Only the last stage sends anything: the request that the profile asks for. -/
  unsent : (∀ p vault, ¬ Creates files a p vault) →
    (run env files script ticks argv).trace.requests = []
  sent : ∀ p vault, Creates files a p vault →
    (run env files script ticks argv).trace.requests = (Vault.requestFor p).toList
  sent_le_one : (run env files script ticks argv).trace.requests.length ≤ 1
  /-- Without `--export` answers that are alike cannot be told apart. -/
  discreet : a.exporting = false → ∀ (other : Script) (ticks' : List ℕ),
    (∀ p vault, Creates files a p vault → script.next.Alike p other.next) →
      (run env files other ticks' argv).code = (run env files script ticks argv).code ∧
        (run env files other ticks' argv).trace.out = (run env files script ticks argv).trace.out

/-- The last stage of a run comes to an outcome exactly when a retrieval does. -/
theorem comes_resultOf_iff {outcome : Outcome} :
    Comes files answer a (resultOf outcome) ↔
      ∃ p vault, Creates files a p vault ∧
        (vault.call ⟨0, 0, .retrieve⟩ answer).2.outcome = outcome := by
  constructor
  · intro h
    cases outcome with
    | pair pair =>
      obtain _ | _ | ⟨hcreates, houtcome⟩ := h
      exact ⟨_, _, hcreates, (hcreates.onlyGet_eq ⟨0, 0, .retrieve⟩ answer).1.symm.trans houtcome⟩
    | failure failure =>
      obtain hearly | ⟨hcreates, houtcome⟩ | _ := h
      · -- the stages before the fetch have errors of their own
        cases hearly
      · exact ⟨_, _, hcreates, (hcreates.onlyGet_eq ⟨0, 0, .retrieve⟩ answer).1.symm.trans houtcome⟩
  · rintro ⟨p, vault, hcreates, rfl⟩
    rw [← (hcreates.onlyGet_eq ⟨0, 0, .retrieve⟩ answer).1, comes_iff]
    exact result_of_creates hcreates

/-- One request is sent at most. -/
theorem length_sent_le_one (files : Files) (answer : Answer) (a : Arguments) :
    (sent files answer a).length ≤ 1 := by
  unfold sent
  cases provider files a with
  | error error => exact Nat.zero_le 1
  | ok vault => exact Option.length_toList_le

/-- A run that does not watch does all that it is for, or prints nothing. -/
theorem allOrNothing {env : Environment} {argv : List String} {a : Arguments}
    (parsed : Arguments.parse env argv = .ok a) (once : a.watch = false) (files : Files)
    (script : Script) (ticks : List ℕ) : AllOrNothing env argv a files script ticks := by
  -- a run that does not watch is over before its first tick
  have hrun : ∀ script ticks, run env files script ticks argv =
      .ofResult a.exporting (sent files script.next a) (result files script.next a) := by
    intro script ticks
    rw [← runWith_eq_ofResult once files script ticks, run, parsed]
  constructor
  case stages => exact ⟨_, comes_iff.mpr rfl, fun r hcomes => (comes_iff.mp hcomes).symm⟩
  case zero_iff =>
    simp only [comes_iff, hrun]
    cases result files script.next a with
    | error error => simp [Ending.ofResult, Ending.failed]
    | ok pair => simp [Ending.ofResult]
  case printed_iff =>
    rw [hrun]
    cases result files script.next a with
    | error error => simp [Ending.ofResult, Ending.failed]
    | ok pair => simp [Ending.ofResult, report_ne_empty]
  case reported =>
    intro pair hcomes
    rw [hrun, comes_iff.mp hcomes]
    exact ⟨rfl, rfl⟩
  case failed =>
    intro error hcomes
    rw [hrun, comes_iff.mp hcomes]
    exact ⟨rfl, rfl, rfl⟩
  case retrieved => exact fun outcome => comes_resultOf_iff
  case unsent =>
    intro hnone
    rw [hrun, Ending.requests_ofResult, sent_of_not_creates hnone]
  case sent =>
    intro p vault hcreates
    rw [hrun, Ending.requests_ofResult, sent_of_creates hcreates]
  case sent_le_one =>
    rw [hrun, Ending.requests_ofResult]
    exact length_sent_le_one files script.next a
  case discreet =>
    intro hquiet other ticks' halike
    have hshown := shown_result_eq halike
    have hending := Ending.shown_ofResult (sent files script.next a) (result files script.next a)
    have hother := Ending.shown_ofResult (sent files other.next a) (result files other.next a)
    rw [← hshown, ← hending, ← hquiet, ← hrun, ← hrun] at hother
    exact Prod.mk.inj hother

/-- Two pairs that begin alike are reported alike, and nothing more is printed of either. -/
theorem allOrNothing_of_alike_answers :
    let env : Environment := ⟨none, none⟩
    let argv := ["--address", "http://v", "--token", "t", "--secret-path", "secret/aws",
      "--access-key-name", "ak", "--secret-key-name", "sk"]
    let value (id key : String) : Json :=
      .object [("data", .object [("ak", .text id), ("sk", .text key)])]
    let script (id key : String) : Script :=
      ⟨[.complete 200 (value id key).print.toUTF8], .silent⟩
    ∃ a, Arguments.parse env argv = .ok a ∧ a.watch = false ∧
      (run env .empty (script "AKIA1" "S1") [] argv).code = 0 ∧
      (run env .empty (script "AKIA1" "S1") [] argv).trace.out = "VaultConfigProvider AKIA*\n" ∧
      (run env .empty (script "AKIA2" "other") [] argv).code = 0 ∧
      (run env .empty (script "AKIA2" "other") [] argv).trace.out =
        "VaultConfigProvider AKIA*\n" := by
  intro env argv value script
  let a : Arguments := Arguments.ofGiven env
    ⟨[(.address, "http://v"), (.token, "t"), (.secretPath, "secret/aws"), (.accessKeyName, "ak"),
      (.secretKeyName, "sk")], []⟩
  let s : Settings :=
    { Settings.initial with
      address := "http://v", token := some "t", secretPath := "secret/aws"
      accessKeyName := "ak", secretKeyName := "sk" }
  let p : Profile :=
    { address := "http://v", token := "t", secretPath := "secret/aws", accessKeyName := "ak"
      secretKeyName := "sk", ttl := 6000, fetchTimeout := 5000, timeout := 5000, caFile := none
      kvV2 := true }
  have hparse : Arguments.parse env argv = .ok a := rfl
  have hsettings : a.settings .empty = .ok s := rfl
  have haccepted : Profile.ofSettings .empty s = .ok p := by decide +kernel
  have hprofile : ∀ q vault, Creates .empty a q vault → q = p := by
    rintro q vault ⟨⟨s', hs', hq⟩, -⟩
    obtain rfl := Except.ok.inj (hsettings.symm.trans hs')
    exact Except.ok.inj (hq.symm.trans haccepted)
  have hwhole : ∀ id key, (value id key).IsWhole := by simp [value, Json.IsWhole, Json.HasWhole]
  have hfirst : Document.ofBytes (value "AKIA1" "S1").print.toUTF8 =
      ⟨(value "AKIA1" "S1").written, true⟩ :=
    Json.ofBytes_of_marks (hwhole _ _) (by decide +kernel)
  have hsecond : Document.ofBytes (value "AKIA2" "other").print.toUTF8 =
      ⟨(value "AKIA2" "other").written, true⟩ :=
    Json.ofBytes_of_marks (hwhole _ _) (by decide +kernel)
  have halike : ∀ q vault, Creates .empty a q vault →
      (script "AKIA1" "S1").next.Alike q (script "AKIA2" "other").next := by
    intro q vault hcreates
    obtain rfl := hprofile q vault hcreates
    have hshown : KeyPair.ShownAlike "AKIA1" "AKIA2" := by decide
    have hroot : RecordAlike p (value "AKIA1" "S1").written (value "AKIA2" "other").written :=
      .object (.object true (.cons (.changed ⟨rfl, .object true
        (.cons (.changed (.bare (.text (.inl rfl) fun _ => hshown)))
          (.cons (.changed (.bare (.text (.inr rfl) (absurd · (by decide))))) .nil))⟩) .nil))
    refine .written 200 ?_ ?_
    · rw [hfirst, hsecond]
    · rw [hfirst, hsecond]
      exact hroot
  have hcode : (run env .empty (script "AKIA1" "S1") [] argv).code = 0 := by decide +kernel
  have hout : (run env .empty (script "AKIA1" "S1") [] argv).trace.out =
      "VaultConfigProvider AKIA*\n" := by decide +kernel
  obtain ⟨hcode', hout'⟩ :=
    (allOrNothing hparse rfl .empty (script "AKIA1" "S1") []).discreet rfl
      (script "AKIA2" "other") [] halike
  exact ⟨a, hparse, rfl, hcode, hout, hcode'.trans hcode, hout'.trans hout⟩

end Cli

end FreshKeys
