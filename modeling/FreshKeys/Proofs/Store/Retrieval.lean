import FreshKeys.Proofs.Json.Spelling
import FreshKeys.Proofs.Store.Calls
import FreshKeys.Proofs.Store.Replies
import FreshKeys.Registry

/-!
# One retrieval from a store

The first call of a vault sends one request, and what it comes to is settled by the answer. A call
returns a pair when the answer holds a secret with texts under both tracked names, names the field
that is wrong when it holds another, and fails for want of a secret when it holds none.
-/

namespace FreshKeys

open Json (Node)
open Refresh (Cache Call)
open Store (Answer Client Exchange Request)

namespace Vault

variable {client : Client} {p : Profile} {request : Request} {answer : Answer}

/-- The end of a refresh asks for nothing. -/
theorem asked?_ending (followers : Nat) (outcome : Outcome) :
    (Cache.ending followers outcome).asked? = none := by
  cases outcome <;> rfl

/-- The beginning of a call asks for nothing. -/
theorem asked?_opening (p : Profile) (call : Call) :
    (opening p call).filterMap Note.asked? = [] := by
  unfold opening
  cases call.way.handle? <;> rfl

/-- The first call of a vault makes one read, and comes to what is made of what it fetches. -/
theorem call_fresh (client : Client) (p : Profile) (call : Call) (answer : Answer) :
    ∃ before after, before.filterMap Note.asked? = [] ∧ after.filterMap Note.asked? = [] ∧
      ((Vault.fresh client p).call call answer).2 =
        ⟨((Cache.ofProfile p).absorb (fetched p (client.read p.secretPath answer))).2,
          (client.read p.secretPath answer).request,
          before ++ (client.read p.secretPath answer).notes ++ after⟩ := by
  obtain ⟨cycles, hcall⟩ := call_atRest (.ofProfile p) client [none] call (fun _ _ => rfl) answer
  have hturn := congrArg Prod.snd hcall
  rw [taken_snd] at hturn
  exact ⟨_, _, asked?_opening p call, by simp [asked?_ending], hturn⟩

end Vault

namespace Refresh.Cache

variable {c : Cache} {fetched : Except Failure Secret}

/-- A pair comes of a secret with texts under both tracked names, and is those texts. -/
theorem absorb_eq_pair_iff {pair : KeyPair} :
    (c.absorb fetched).2 = .pair pair ↔
      ∃ secret, fetched = .ok secret ∧
        secret.get? c.tracked.accessKey.name = some (.text pair.accessKeyId) ∧
        secret.get? c.tracked.secretKey.name = some (.text pair.secretAccessKey) ∧
          pair.providerName = KeyPair.vaultProvider := by
  constructor
  · intro h
    cases fetched with
    | error failure => cases h
    | ok secret =>
      cases hmerge : c.tracked.merge secret with
      | error failure => simp [absorb, hmerge] at h
      | ok merged =>
        obtain ⟨access, hidden, haccess, hhidden, rfl⟩ := TrackedPair.merge_eq_ok_iff.mp hmerge
        simp only [absorb, hmerge, Outcome.pair.injEq] at h
        subst h
        exact ⟨secret, rfl, haccess, hhidden, rfl⟩
  · rintro ⟨secret, rfl, haccess, hhidden, hname⟩
    have hmerge := TrackedPair.merge_eq_ok_iff.mpr ⟨_, _, haccess, hhidden, rfl⟩
    simp [absorb, hmerge, TrackedPair.pair, ← hname]

/-- A secret is found at fault exactly when it is fetched and refused. -/
theorem absorb_eq_shapeMismatch_iff {key : String} {issue : ShapeIssue}
    (source : ∀ failure, fetched = .error failure → failure.isSourceUnavailable = true) :
    (c.absorb fetched).2 = .failure (.shapeMismatch key issue) ↔
      ∃ secret, fetched = .ok secret ∧
        c.tracked.merge secret = .error (.shapeMismatch key issue) := by
  cases fetched with
  | error failure =>
    have hsource := source failure rfl
    cases failure <;> simp [absorb, Failure.isSourceUnavailable] at hsource ⊢
  | ok secret =>
    simp only [absorb, Except.ok.injEq, exists_eq_left']
    cases c.tracked.merge secret <;> simp

/-- The source is blamed exactly when no secret was fetched. -/
theorem absorb_eq_sourceUnavailable_iff {reason : String} :
    (c.absorb fetched).2 = .failure (.sourceUnavailable reason) ↔
      fetched = .error (.sourceUnavailable reason) := by
  cases fetched with
  | error failure => simp [absorb]
  | ok secret =>
    simp only [absorb, reduceCtorEq, iff_false]
    cases hmerge : c.tracked.merge secret with
    | error failure =>
      obtain ⟨key, issue, rfl⟩ := TrackedPair.eq_shapeMismatch_of_merge hmerge
      simp
    | ok merged => simp

end Refresh.Cache

namespace Vault

variable {client : Client} {p : Profile} {request : Request} {answer : Answer}

/-- Only an answer that never comes takes time, and it comes to a failure. -/
theorem reply_late
    (sendable : client.request? (Store.apiPath client.kvV2 p.secretPath) = some request)
    (late : ¬ (client.read p.secretPath answer).elapsed ≤ p.fetchTimeout) :
    ∃ causes, (client.read p.secretPath answer).reply = .failed causes := by
  cases answer with
  | complete status body => simp [Client.read, Client.get, sendable] at late
  | broken reason => simp [Client.read, Client.get, sendable] at late
  | silent =>
    simp only [Exchange.reply, Client.read, Client.get, sendable, Except.map]
    exact ⟨_, rfl⟩

/-- A secret is fetched exactly when the answer holds it. -/
theorem fetched_eq_ok_iff
    (sendable : client.request? (Store.apiPath client.kvV2 p.secretPath) = some request)
    {secret : Secret} :
    fetched p (client.read p.secretPath answer) = .ok secret ↔
      answer.Holds client.kvV2 secret := by
  rw [← Client.reply_eq_secret_iff sendable, fetched]
  by_cases hintime : (client.read p.secretPath answer).elapsed ≤ p.fetchTimeout
  · rw [if_pos hintime]
    cases (client.read p.secretPath answer).reply <;> simp [Reply.secret?]
  · obtain ⟨causes, hreply⟩ := reply_late sendable hintime
    simp [hintime, hreply]

/-- The source is said to hold nothing exactly when the answer says so. -/
theorem fetched_eq_nothing_iff
    (sendable : client.request? (Store.apiPath client.kvV2 p.secretPath) = some request) :
    fetched p (client.read p.secretPath answer) =
        .error (.sourceUnavailable ("no data returned for " ++ p.secretPath)) ↔
      answer.Empty client.kvV2 := by
  rw [← Client.reply_eq_nothing_iff sendable, fetched]
  by_cases hintime : (client.read p.secretPath answer).elapsed ≤ p.fetchTimeout
  · rw [if_pos hintime]
    cases hreply : (client.read p.secretPath answer).reply with
    | secret secret => simp [Reply.secret?]
    | nothing => simp [Reply.secret?]
    | failed causes =>
      simp only [Reply.secret?, reduceCtorEq, iff_false, Except.error.injEq,
        Failure.sourceUnavailable.injEq]
      intro htext
      have hhead := Client.head?_of_reply sendable hreply
      simp [htext] at hhead
  · obtain ⟨causes, hreply⟩ := reply_late sendable hintime
    have htext : "secret read timed out after " ++ Text.spanOfMillis p.fetchTimeout ≠
        "no data returned for " ++ p.secretPath := by
      intro htext
      simpa using congrArg (fun text => text.toList.head?) htext
    simp [hintime, hreply, Refresh.timedOut, htext]

/-- What is not fetched is missing from the source. -/
theorem isSourceUnavailable_of_fetched {exchange : Exchange Secret} {failure : Failure}
    (h : fetched p exchange = .error failure) : failure.isSourceUnavailable = true := by
  unfold fetched at h
  split at h
  · cases hreply : exchange.reply <;> simp only [hreply, Reply.secret?] at h <;> cases h <;> rfl
  · cases h
    rfl

/-- The client that a profile asks for, if its certificate file is good. -/
def clientFor (p : Profile) : Client := ⟨p.address, p.token, p.kvV2, p.timeout⟩

/-- The request for the secret of a profile, if it can be sent. -/
def requestFor (p : Profile) : Option Request :=
  (clientFor p).request? (Store.apiPath p.kvV2 p.secretPath)

/-- A vault is created over the client that its profile asks for. -/
theorem eq_fresh_of_create {files : Files} {vault : Vault}
    (created : Registry.create files Registry.Kind.vault.name p = .ok vault) :
    vault = .fresh (clientFor p) p := by
  have hlookup : Registry.lookup Registry.Kind.vault.name = .ok .vault := by decide
  simp only [Registry.create, hlookup, bind, Except.bind, Registry.Kind.build] at created
  cases hclient : Client.ofProfile files p with
  | error causes => simp [hclient, Except.mapError] at created
  | ok client =>
    have hplain : client = clientFor p := by
      unfold Client.ofProfile at hclient
      split at hclient
      · exact (Except.ok.inj hclient).symm
      · split at hclient
        · cases hclient
        · split at hclient
          · exact (Except.ok.inj hclient).symm
          · cases hclient
    simp only [hclient, Except.mapError, Except.ok.injEq] at created
    exact created ▸ hplain ▸ rfl

/-- What a retrieval comes to whose request meets an answer. -/
structure Retrieved (p : Profile) (request : Request) (answer : Answer) (turn : Turn) : Prop where
  /-- One request is sent, with the token of the profile. -/
  sent : turn.request = some request
  url : Store.Url.parse? ((clientFor p).addressOf (Store.apiPath p.kvV2 p.secretPath)) =
    some request.url
  token : request.token = p.token
  asked : turn.notes.filterMap Note.asked? = [Store.apiPath p.kvV2 p.secretPath]
  pair_iff : ∀ pair, turn.outcome = .pair pair ↔
    ∃ secret, answer.Holds p.kvV2 secret ∧
      secret.get? p.accessKeyName = some (.text pair.accessKeyId) ∧
      secret.get? p.secretKeyName = some (.text pair.secretAccessKey) ∧
        pair.providerName = KeyPair.vaultProvider
  /-- The access key is named if it is at fault, and otherwise the secret key. -/
  mismatch_iff : ∀ key issue, turn.outcome = .failure (.shapeMismatch key issue) ↔
    ∃ secret, answer.Holds p.kvV2 secret ∧
      (key = p.accessKeyName ∧ secret.Lacks p.accessKeyName issue ∨
        (∃ access, secret.get? p.accessKeyName = some (.text access)) ∧
          key = p.secretKeyName ∧ secret.Lacks p.secretKeyName issue)
  unavailable_iff : (∃ reason, turn.outcome = .failure (.sourceUnavailable reason)) ↔
    ¬ ∃ secret, answer.Holds p.kvV2 secret
  nothing_iff :
    turn.outcome = .failure (.sourceUnavailable ("no data returned for " ++ p.secretPath)) ↔
      answer.Empty p.kvV2

/-- The first retrieval of a vault whose request can be sent sends it once, and its outcome is that
of the answer. -/
theorem retrieved_of_sendable {files : Files} {vault : Vault}
    (created : Registry.create files Registry.Kind.vault.name p = .ok vault)
    (sendable : vault.client.request? (Store.apiPath p.kvV2 p.secretPath) = some request)
    (call : Call) (answer : Answer) :
    Retrieved p request answer (vault.call call answer).2 := by
  obtain rfl := eq_fresh_of_create created
  have hsend : (clientFor p).request? (Store.apiPath (clientFor p).kvV2 p.secretPath) =
      some request := sendable
  have hholds : ∀ secret, answer.Holds p.kvV2 secret ↔
      fetched p ((clientFor p).read p.secretPath answer) = .ok secret :=
    fun _ => (fetched_eq_ok_iff hsend).symm
  obtain ⟨before, after, hbefore, hafter, hturn⟩ := call_fresh (clientFor p) p call answer
  rw [hturn]
  constructor
  case sent => exact Client.request_read hsend
  case url => exact (Client.url_token_of_request hsend).1
  case token => exact (Client.url_token_of_request hsend).2
  case asked => simp [hbefore, hafter, Client.asked_read, clientFor]
  case pair_iff =>
    intro pair
    simp only [Cache.absorb_eq_pair_iff, hholds]
    rfl
  case mismatch_iff =>
    intro key issue
    simp only [Cache.absorb_eq_shapeMismatch_iff fun _ => isSourceUnavailable_of_fetched, hholds,
      TrackedPair.merge_eq_shapeMismatch_iff]
    rfl
  case unavailable_iff =>
    simp only [Cache.absorb_eq_sourceUnavailable_iff, hholds]
    cases hfetched : fetched p ((clientFor p).read p.secretPath answer) with
    | error failure =>
      have hsource := isSourceUnavailable_of_fetched hfetched
      cases failure <;> simp [Failure.isSourceUnavailable] at hsource ⊢
    | ok secret => simp
  case nothing_iff =>
    simp only [Cache.absorb_eq_sourceUnavailable_iff, fetched_eq_nothing_iff hsend]
    rfl

/-- An envelope around a secret that has the access key alone: the secret key is missing. -/
theorem retrieved_without_secretKey :
    let p : Profile :=
      { address := "http://127.0.0.1:8200", token := "root", secretPath := "secret/aws"
        accessKeyName := "ak", secretKeyName := "sk", ttl := 6000, fetchTimeout := 5000
        timeout := 5000, caFile := none, kvV2 := true }
    let payload : Secret := [("data", .object [("ak", .text "AKIA1")]), ("metadata", .object [])]
    let body := (Json.object [("data", .object payload)]).print.toUTF8
    let request : Request :=
      ⟨⟨false, "127.0.0.1", some 8200, ["v1", "secret", "data", "aws"], none⟩, "root"⟩
    ∃ vault : Vault,
      Registry.create .empty Registry.Kind.vault.name p = .ok vault ∧
      vault.client.request? (Store.apiPath p.kvV2 p.secretPath) = some request ∧
      (vault.call ⟨0, 1, .retrieve⟩ (.complete 200 body)).2.request = some request ∧
      (vault.call ⟨0, 1, .retrieve⟩ (.complete 200 body)).2.outcome =
        .failure (.shapeMismatch "sk" .missing) := by
  intro p payload body request
  have hcreated : Registry.create .empty Registry.Kind.vault.name p =
      .ok (.fresh (clientFor p) p) := rfl
  have hpath : Store.apiPath p.kvV2 p.secretPath = "secret/data/aws" := by decide
  have hsend : (clientFor p).request? (Store.apiPath p.kvV2 p.secretPath) = some request := by
    rw [hpath]
    decide +kernel
  have hdocument : Node.Document.ofBytes body =
      ⟨(Json.object [("data", .object payload)]).written, true⟩ := by
    have hmarks : Text.Utf8.marks body.toList =
        Text.marksOf (Json.object [("data", .object payload)]).print := by decide +kernel
    rw [Node.Document.ofBytes, hmarks]
    exact Json.ofText_print (by simp [payload, Json.IsWhole, Json.HasWhole])
  have hbrings : (Answer.complete 200 body).Brings (some payload) :=
    ⟨body, none, rfl, by rw [hdocument]; rfl⟩
  have hretrieved := retrieved_of_sendable hcreated hsend ⟨0, 1, .retrieve⟩ (.complete 200 body)
  refine ⟨_, hcreated, hsend, hretrieved.sent, ?_⟩
  apply (hretrieved.mismatch_iff _ _).mpr
  refine ⟨[("ak", .text "AKIA1")], ⟨payload, hbrings, .wrapped ⟨rfl, rfl⟩ rfl⟩, ?_⟩
  exact .inr ⟨⟨"AKIA1", rfl⟩, rfl, .missing rfl⟩

end Vault

end FreshKeys
