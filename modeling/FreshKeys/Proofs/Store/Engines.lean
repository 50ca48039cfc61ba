import FreshKeys.Proofs.Json.Nesting
import FreshKeys.Proofs.Refresh.Providers
import FreshKeys.Proofs.Store.Retrieval

/-!
# Both engines give the same credentials

A secret comes from version 1 of the engine as it is, and from version 2 in an envelope. Whatever
the secret holds and whatever else is in the envelope, the two retrievals come to the same, at any
state of the provider: everything after the read depends on the texts in the secret alone, and so
does a whole series of calls. Version 2 takes a secret without an envelope as it is, unless the
secret itself looks like one, and an envelope around something that is no secret is taken as a
whole.
-/

namespace FreshKeys

open Json (Node)
open Json.Node (Document levels value?)
open Refresh (Cache Call Provider Way)
open Store (Answer Client Request Script)

/-- Two secrets are read alike: they have the same texts under the same keys, and lack them for the
same reasons. The order of their fields does not matter. -/
def Secret.ReadAlike (first second : Secret) : Prop := ∀ key, first.text key = second.text key

/-- Nothing is fetched of a secret but the texts under the tracked names. -/
theorem Secret.ReadAlike.absorb_eq {first second : Secret} (h : first.ReadAlike second)
    (c : Cache) : c.absorb (.ok first) = c.absorb (.ok second) := by
  simp only [Cache.absorb, TrackedPair.merge, h _]

/-- A leader makes the same of secrets that are read alike. -/
theorem Secret.ReadAlike.step_eq {first second : Secret} (h : first.ReadAlike second)
    (q : Provider) (call : Call) :
    q.step (.refresh (.answer call (.secret first))) =
      q.step (.refresh (.answer call (.secret second))) := by
  simp only [Provider.step, Provider.refresh, Cache.step, Reply.secret?, Cache.commit,
    h.absorb_eq]

namespace Store

/-- A body spells an answer whose data are a value, and nothing else; it does not nest too deep. -/
def Spells (body : ByteArray) (value : Json) : Prop :=
  ∃ data, Document.ofBytes body = ⟨.object [(some Response.Field.data.name, data)] true, true⟩ ∧
    value? data = some value ∧ levels data ≤ Response.dataDepth

/-- A body that spells an answer with named values brings them. -/
theorem brings_of_spells {body : ByteArray} {payload : Secret}
    (hspells : Spells body (.object payload)) :
    (Answer.complete 200 body).Brings (some payload) := by
  obtain ⟨data, hbody, hvalue, hlevels⟩ := hspells
  have hread : Node.readOption Response.readSecret data = .ok (some payload) := by
    obtain ⟨members, closed, rfl⟩ := Node.eq_object_of_value? hvalue
    have hmembers : Response.readSecret (.object members closed) = .ok payload :=
      Node.readMembers_eq_ok_iff.mpr ⟨hvalue, hlevels⟩
    simp [Node.readOption, hmembers, Except.map]
  have hfield : Response.Field.named? Response.Field.data.name = some .data := rfl
  refine ⟨body, none, rfl, ?_⟩
  rw [hbody]
  simp only [Document.read, Response.ofNode, Node.Fields.collect, hfield, Response.Draft.has,
    Response.Draft.put, hread, Except.map, bind, Except.bind, Option.isSome_none,
    Bool.false_eq_true, if_false, if_true]
  rfl

/-- Without an envelope a secret is held as it is. -/
theorem holds_of_bare {kvV2 : Bool} {body : ByteArray} {secret : Secret}
    (hspells : Spells body (.object secret)) (plain : ¬ IsEnvelope kvV2 secret) :
    (Answer.complete 200 body).Holds kvV2 secret :=
  ⟨secret, brings_of_spells hspells, .bare plain⟩

/-- What is held of an envelope is the secret that it is put around, whatever else is in it. -/
theorem holds_of_wrapped {body : ByteArray} {payload secret : Secret}
    (hspells : Spells body (.object payload)) (hmetadata : payload.has metadataKey = true)
    (hdata : payload.get? payloadKey = some (.object secret)) :
    (Answer.complete 200 body).Holds true secret :=
  ⟨payload, brings_of_spells hspells, .wrapped ⟨rfl, hmetadata⟩ hdata⟩

/-- An envelope around what is neither an object nor null is held as it is. -/
theorem holds_of_odd {body : ByteArray} {payload : Secret} {value : Json}
    (hspells : Spells body (.object payload)) (hmetadata : payload.has metadataKey = true)
    (hdata : payload.get? payloadKey = some value) (hobject : ∀ inner, value ≠ .object inner)
    (hnull : value ≠ .null) : (Answer.complete 200 body).Holds true payload := by
  refine ⟨payload, brings_of_spells hspells, .odd ⟨rfl, hmetadata⟩ ?_ ?_⟩
  · intro inner hinner
    exact hobject inner (Option.some.inj (hdata.symm.trans hinner))
  · intro hgone
    exact hnull (Option.some.inj (hdata.symm.trans hgone))

/-- A body of the characters of such an answer, as they are written, spells it. -/
theorem spells_of_marks {body : ByteArray} {value : Json} (hwhole : value.IsWhole)
    (hvalue : value? value.written = some value)
    (hlevels : levels value.written ≤ Response.dataDepth)
    (hmarks : Text.Utf8.marks body.toList =
      Text.marksOf (Json.object [(Response.Field.data.name, value)]).print) :
    Spells body value := by
  have hanswer : (Json.object [(Response.Field.data.name, value)]).IsWhole := ⟨hwhole, trivial⟩
  exact ⟨value.written, Json.ofBytes_of_marks hanswer hmarks, hvalue, hlevels⟩

/-- A read of an answer that holds a secret takes no time and comes to the secret. -/
theorem Client.read_of_holds {client : Client} {path : String} {request : Request} {answer : Answer}
    {secret : Secret} (sendable : client.request? (apiPath client.kvV2 path) = some request)
    (holds : answer.Holds client.kvV2 secret) :
    (client.read path answer).elapsed = 0 ∧ (client.read path answer).reply = .secret secret := by
  refine ⟨?_, (Client.reply_eq_secret_iff sendable).mpr holds⟩
  obtain ⟨-, ⟨body, warnings, rfl, -⟩, -⟩ := holds
  simp [Client.read, Client.get, sendable]

end Store

/-- Nothing that happens to a provider changes its terms. -/
theorem Refresh.Provider.terms_run (q : Provider) (events : List Provider.Event) :
    (q.run events).1.cache.terms = q.cache.terms := by
  induction events generalizing q with
  | nil => rfl
  | cons event rest ih =>
    obtain ⟨happened, asides, moved, hmove, -⟩ := (q.step_move event).cache_move
    exact (ih _).trans hmove.terms_eq.1

namespace Vault

/-- Two calls come to the same: the provider after them, the outcome, and whether one was sent. -/
structure Alike (first second : Vault × Turn) : Prop where
  provider : first.1.provider = second.1.provider
  outcome : first.2.outcome = second.2.outcome
  sent : first.2.request.isSome = second.2.request.isSome

/-- Vaults over the same provider make the same of answers whose secrets are read alike. -/
theorem alike_of_holds {first second : Client} {q : Provider} {request request' : Request}
    {answer answer' : Answer} {secret secret' : Secret}
    (sendable : first.request? (Store.apiPath first.kvV2 q.cache.terms.path) = some request)
    (sendable' : second.request? (Store.apiPath second.kvV2 q.cache.terms.path) = some request')
    (holds : answer.Holds first.kvV2 secret) (holds' : answer'.Holds second.kvV2 secret')
    (same : secret.ReadAlike secret') (call : Call) :
    Alike ((⟨first, q⟩ : Vault).call call answer) ((⟨second, q⟩ : Vault).call call answer') := by
  have hterms : (q.step (.refresh (.join call))).1.cache.terms = q.cache.terms :=
    q.terms_run [.refresh (.join call)]
  obtain ⟨helapsed, hreply⟩ := Client.read_of_holds sendable holds
  obtain ⟨helapsed', hreply'⟩ := Client.read_of_holds sendable' holds'
  have hrun : ∀ (reached : Provider) (fetchTimeout : ℕ),
      reached.run (events call fetchTimeout (first.read q.cache.terms.path answer)) =
        reached.run (events call fetchTimeout (second.read q.cache.terms.path answer')) := by
    intro reached fetchTimeout
    simp only [events, helapsed, helapsed', hreply, hreply', Nat.zero_le, if_true, Provider.run,
      same.step_eq]
  unfold Vault.call
  simp only [hterms, hrun]
  split
  · exact ⟨rfl, rfl, rfl⟩
  · refine ⟨rfl, rfl, ?_⟩
    rw [Client.request_read sendable, Client.request_read sendable']
    rfl

/-- A call leaves the terms of a vault as they are. -/
theorem terms_call (v : Vault) (call : Call) (answer : Answer) :
    (v.call call answer).1.provider.cache.terms = v.provider.cache.terms := by
  have hjoin : (v.provider.step (.refresh (.join call))).1.cache.terms = v.provider.cache.terms :=
    v.provider.terms_run [.refresh (.join call)]
  unfold Vault.call
  simp only
  split
  · exact hjoin
  · exact (Provider.terms_run _ _).trans hjoin

/-- A call leaves the client of a vault as it is. -/
theorem client_call (v : Vault) (call : Call) (answer : Answer) :
    (v.call call answer).1.client = v.client := by
  unfold Vault.call
  simp only
  split <;> rfl

/-- Two answers hold one secret, each in the version that its client asks. -/
def HoldOne (first second : Client) (answer answer' : Answer) : Prop :=
  ∃ secret secret', answer.Holds first.kvV2 secret ∧ answer'.Holds second.kvV2 secret' ∧
    secret.ReadAlike secret'

/-- Two scripts hold the same secrets, one after the other. -/
structure HoldSame (first second : Client) (script other : Script) : Prop where
  answers : List.Forall₂ (HoldOne first second) script.answers other.answers
  afterwards : HoldOne first second script.afterwards other.afterwards

/-- The next answers of such scripts hold one secret. -/
theorem HoldSame.next {first second : Client} {script other : Script}
    (h : HoldSame first second script other) : HoldOne first second script.next other.next := by
  obtain ⟨answers, afterwards⟩ := script
  obtain ⟨others, afterwards'⟩ := other
  obtain ⟨hanswers, hafterwards⟩ := h
  unfold Script.next
  cases hanswers with
  | nil => exact hafterwards
  | cons hone _ => exact hone

/-- What is left of such scripts holds the same secrets. -/
theorem HoldSame.after {first second : Client} {script other : Script}
    (h : HoldSame first second script other) {request request' : Option Request}
    (hsent : request.isSome = request'.isSome) :
    HoldSame first second (script.after request) (other.after request') := by
  obtain ⟨answers, afterwards⟩ := script
  obtain ⟨others, afterwards'⟩ := other
  obtain ⟨hanswers, hafterwards⟩ := h
  unfold Script.after
  rw [hsent]
  split
  · refine ⟨?_, hafterwards⟩
    cases hanswers with
    | nil => exact .nil
    | cons _ hrest => exact hrest
  · exact ⟨hanswers, hafterwards⟩

-- The two vaults go through the same providers: what one call leaves behind is where the next one
-- begins, and both scripts lose an answer at the same calls.
/-- Calls against scripts that hold the same secrets come to the same outcomes, whatever the
versions that the clients ask. -/
theorem outcomes_of_holdSame {first second : Client} {path : String} {request other : Request}
    (sendable : first.request? (Store.apiPath first.kvV2 path) = some request)
    (sendable' : second.request? (Store.apiPath second.kvV2 path) = some other) (way : Way)
    (times : ℕ) {q : Provider} (hpath : q.cache.terms.path = path) {script script' : Script}
    (hscripts : HoldSame first second script script') (number : ℕ) :
    ((⟨first, q⟩ : Vault).calls way number times script).2.2.map Turn.outcome =
      ((⟨second, q⟩ : Vault).calls way number times script').2.2.map Turn.outcome := by
  induction times generalizing q script script' number with
  | zero => rfl
  | succ times ih =>
    obtain ⟨secret, secret', holds, holds', hsame⟩ := hscripts.next
    subst hpath
    have halike := alike_of_holds sendable sendable' holds holds' hsame ⟨0, number, way⟩
    have hafter := hscripts.after halike.sent
    have hterms := terms_call ⟨first, q⟩ ⟨0, number, way⟩ script.next
    have hfirst := client_call ⟨first, q⟩ ⟨0, number, way⟩ script.next
    have hsecond := client_call ⟨second, q⟩ ⟨0, number, way⟩ script'.next
    have hprovider := halike.provider
    have houtcome := halike.outcome
    simp only [calls, List.map_cons]
    generalize (⟨first, q⟩ : Vault).call ⟨0, number, way⟩ script.next = reached at *
    generalize (⟨second, q⟩ : Vault).call ⟨0, number, way⟩ script'.next = reached' at *
    obtain ⟨⟨_, next⟩, turn⟩ := reached
    obtain ⟨⟨_, next'⟩, turn'⟩ := reached'
    obtain rfl : _ = first := hfirst
    obtain rfl : _ = second := hsecond
    obtain rfl : next = next' := hprovider
    rw [houtcome, ih (congrArg Refresh.Terms.path hterms) hafter]

/-- The credentials in a secret, or what is wrong with it. -/
def credentialsOf (p : Profile) (secret : Secret) : Outcome :=
  match (TrackedPair.named p.accessKeyName p.secretKeyName).merge secret with
  | .ok tracked => .pair tracked.pair
  | .error failure => .failure failure

/-- The first call of a vault whose answer holds a secret comes to the credentials in it. -/
theorem outcome_of_holds {client : Client} {p : Profile} {request : Request} {answer : Answer}
    {secret : Secret}
    (sendable : client.request? (Store.apiPath client.kvV2 p.secretPath) = some request)
    (holds : answer.Holds client.kvV2 secret) (call : Call) :
    ((Vault.fresh client p).call call answer).2.outcome = credentialsOf p secret := by
  obtain ⟨before, after, -, -, hturn⟩ := call_fresh client p call answer
  rw [hturn, (fetched_eq_ok_iff sendable).mpr holds]
  have htracked : (Cache.ofProfile p).tracked = .named p.accessKeyName p.secretKeyName := rfl
  simp only [Cache.absorb, htracked, credentialsOf]
  cases (TrackedPair.named p.accessKeyName p.secretKeyName).merge secret <;> rfl

/-- What is made of secrets that are read alike is the same. -/
theorem credentialsOf_eq {p : Profile} {secret secret' : Secret} (h : secret.ReadAlike secret') :
    credentialsOf p secret = credentialsOf p secret' := by
  simp only [credentialsOf, TrackedPair.merge, h _]

/-- What vaults over the two versions of the engine have in common: one asks version 1 for what the
profile names, and the other one version 2. -/
structure SameCredentials (p : Profile) (plain versioned : Vault) : Prop where
  /-- A secret comes to what it comes to in an envelope, whatever else the envelope holds: the
  credentials in it, or what is wrong with it. -/
  wrapped : ∀ {flat enveloped : ByteArray} {secret payload inner : Secret},
    Store.Spells flat (.object secret) → Store.Spells enveloped (.object payload) →
      payload.get? Store.payloadKey = some (.object inner) → secret.ReadAlike inner →
        payload.has Store.metadataKey = true → ∀ call,
          (plain.call call (.complete 200 flat)).2.outcome = credentialsOf p secret ∧
            (versioned.call call (.complete 200 enveloped)).2.outcome = credentialsOf p secret
  /-- So it does for version 2 without an envelope, unless it looks like one. -/
  bare : ∀ {flat : ByteArray} {secret : Secret},
    Store.Spells flat (.object secret) → secret.has Store.metadataKey = false → ∀ call,
      (versioned.call call (.complete 200 flat)).2.outcome = credentialsOf p secret
  /-- At every later call both come to the same as well, and leave the same behind. -/
  alike : ∀ {flat enveloped : ByteArray} {secret payload inner : Secret},
    Store.Spells flat (.object secret) → Store.Spells enveloped (.object payload) →
      (payload.get? Store.payloadKey = some (.object inner) ∧
          payload.has Store.metadataKey = true ∨
        payload = inner ∧ payload.has Store.metadataKey = false) →
      secret.ReadAlike inner → ∀ (q : Provider) (call : Call), q.cache.terms.path = p.secretPath →
        Alike ((⟨plain.client, q⟩ : Vault).call call (.complete 200 flat))
          ((⟨versioned.client, q⟩ : Vault).call call (.complete 200 enveloped))
  /-- An envelope around what is neither an object nor null is a secret itself, with all that is in
  it. -/
  odd : ∀ {body : ByteArray} {payload : Secret} {value : Json},
    Store.Spells body (.object payload) → payload.has Store.metadataKey = true →
      payload.get? Store.payloadKey = some value → (∀ inner, value ≠ .object inner) →
        value ≠ .null →
          (versioned.client.read p.secretPath (.complete 200 body)).reply = .secret payload ∧
            ∀ call, (versioned.call call (.complete 200 body)).2.outcome = credentialsOf p payload

/-- Vaults over the two versions of the engine come to the same credentials for the same secret. -/
theorem sameCredentials_of_created {files : Files} {p : Profile} {plain versioned : Vault}
    {request request' : Request}
    (created : Registry.create files Registry.Kind.vault.name { p with kvV2 := false } = .ok plain)
    (created' :
      Registry.create files Registry.Kind.vault.name { p with kvV2 := true } = .ok versioned)
    (sendable : plain.client.request? (Store.apiPath false p.secretPath) = some request)
    (sendable' : versioned.client.request? (Store.apiPath true p.secretPath) = some request') :
    SameCredentials p plain versioned := by
  obtain rfl := eq_fresh_of_create created
  obtain rfl := eq_fresh_of_create created'
  have hplain : ∀ secret, ¬ Store.IsEnvelope false secret := fun _ h => Bool.false_ne_true h.1
  have hbare : ∀ {secret : Secret}, secret.has Store.metadataKey = false →
      ¬ Store.IsEnvelope true secret := by
    intro secret hmissing henvelope
    exact Bool.false_ne_true (hmissing.symm.trans henvelope.2)
  constructor
  case wrapped =>
    intro flat enveloped secret payload inner hflat henveloped hdata hsame hmetadata call
    have hwrapped := Store.holds_of_wrapped henveloped hmetadata hdata
    exact ⟨outcome_of_holds sendable (Store.holds_of_bare hflat (hplain secret)) call,
      (outcome_of_holds sendable' hwrapped call).trans (credentialsOf_eq hsame).symm⟩
  case bare =>
    intro flat secret hflat hmissing call
    exact outcome_of_holds sendable' (Store.holds_of_bare hflat (hbare hmissing)) call
  case alike =>
    intro flat enveloped secret payload inner hflat henveloped hinner hsame q call hpath
    rw [← hpath] at sendable sendable'
    have hholds := Store.holds_of_bare hflat (hplain secret)
    refine alike_of_holds sendable sendable' hholds ?_ hsame call
    rcases hinner with ⟨hdata, hmetadata⟩ | ⟨rfl, hmissing⟩
    · exact Store.holds_of_wrapped henveloped hmetadata hdata
    · exact Store.holds_of_bare henveloped (hbare hmissing)
  case odd =>
    intro body payload value hspells hmetadata hdata hobject hnull
    have hodd := Store.holds_of_odd hspells hmetadata hdata hobject hnull
    exact ⟨(Client.read_of_holds sendable' hodd).2, outcome_of_holds sendable' hodd⟩

/-- A secret that has a field named as the one in an envelope, an envelope around it with a field
that neither version knows, and an envelope around a text. -/
theorem sameCredentials_of_nested :
    let p : Profile :=
      { address := "http://127.0.0.1:8200", token := "root", secretPath := "secret/aws"
        accessKeyName := "ak", secretKeyName := "sk", ttl := 6000, fetchTimeout := 5000
        timeout := 5000, caFile := none, kvV2 := false }
    let secret : Secret :=
      [("data", .object [("ak", .text "AKIA0")]), ("ak", .text "AKIA1"), ("sk", .text "S1")]
    let payload : Secret :=
      [("metadata", .object [("version", .number (.int 3))]), ("extra", .null),
        ("data", .object secret)]
    let text : Secret :=
      [("ak", .text "AKIA2"), ("data", .text "d"), ("metadata", .null), ("sk", .text "S2")]
    let body (data : Secret) : ByteArray := (Json.object [("data", .object data)]).print.toUTF8
    let call : Call := ⟨0, 1, .retrieve⟩
    let pair : KeyPair := ⟨"AKIA1", "S1", KeyPair.vaultProvider⟩
    ∃ plain versioned : Vault, ∃ request request' : Request,
      Registry.create .empty Registry.Kind.vault.name { p with kvV2 := false } = .ok plain ∧
      Registry.create .empty Registry.Kind.vault.name { p with kvV2 := true } = .ok versioned ∧
      plain.client.request? (Store.apiPath false p.secretPath) = some request ∧
      versioned.client.request? (Store.apiPath true p.secretPath) = some request' ∧
      (plain.call call (.complete 200 (body secret))).2.outcome = .pair pair ∧
      (versioned.call call (.complete 200 (body payload))).2.outcome = .pair pair ∧
      (versioned.call call (.complete 200 (body secret))).2.outcome = .pair pair ∧
      (versioned.client.read p.secretPath (.complete 200 (body text))).reply = .secret text := by
  intro p secret payload text body call pair
  have hcreated : Registry.create .empty Registry.Kind.vault.name { p with kvV2 := false } =
      .ok (.fresh (clientFor { p with kvV2 := false }) { p with kvV2 := false }) := rfl
  have hcreated' : Registry.create .empty Registry.Kind.vault.name { p with kvV2 := true } =
      .ok (.fresh (clientFor { p with kvV2 := true }) { p with kvV2 := true }) := rfl
  have hpath : Store.apiPath false p.secretPath = "secret/aws" := by decide
  have hpath' : Store.apiPath true p.secretPath = "secret/data/aws" := by decide
  have hsend : (clientFor { p with kvV2 := false }).request? (Store.apiPath false p.secretPath) =
      some ⟨⟨false, "127.0.0.1", some 8200, ["v1", "secret", "aws"], none⟩, "root"⟩ := by
    rw [hpath]
    decide +kernel
  have hsend' : (clientFor { p with kvV2 := true }).request? (Store.apiPath true p.secretPath) =
      some ⟨⟨false, "127.0.0.1", some 8200, ["v1", "secret", "data", "aws"], none⟩, "root"⟩ := by
    rw [hpath']
    decide +kernel
  have hsecret : Store.Spells (body secret) (.object secret) :=
    Store.spells_of_marks (by simp [secret, Json.IsWhole, Json.HasWhole]) rfl (by decide)
      (by decide +kernel)
  have hpayload : Store.Spells (body payload) (.object payload) :=
    Store.spells_of_marks
      (by simp [payload, secret, Json.IsWhole, Json.HasWhole, Json.Literal.maxWord]) rfl
      (by decide) (by decide +kernel)
  have htext : Store.Spells (body text) (.object text) :=
    Store.spells_of_marks (by simp [text, Json.IsWhole, Json.HasWhole]) rfl (by decide)
      (by decide +kernel)
  have hsame := sameCredentials_of_created hcreated hcreated' hsend hsend'
  obtain ⟨hplain, hversioned⟩ :=
    hsame.wrapped hsecret hpayload rfl (fun _ => rfl) rfl call
  exact ⟨_, _, _, _, hcreated, hcreated', hsend, hsend', hplain, hversioned,
    hsame.bare hsecret rfl call, (hsame.odd htext rfl rfl (by simp) (by simp)).1⟩

end Vault

end FreshKeys
