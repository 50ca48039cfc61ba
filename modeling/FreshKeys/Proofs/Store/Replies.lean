import FreshKeys.Proofs.Merge
import FreshKeys.Store.Client

/-!
# What a store replies

What a client makes of an answer is settled by the answer alone. It holds a secret when it comes
with status 200 and a body with data in it, which is the secret unless an envelope is around it; it
says that there is none by its status, by an answer without data, or by an envelope around null.
Everything else is a failure, and never reads as the report that there is no secret.
-/

namespace FreshKeys

open Json (Node)

/-- The text of causes begins as the first of them does. -/
theorem Causes.head?_message {cause : String} {first : Char} (rest : Causes)
    (h : cause.toList.head? = some first) :
    (Causes.message (cause :: rest)).toList.head? = some first := by
  cases rest with
  | nil => simpa [Causes.message] using h
  | cons second rest => simp [Causes.message, String.intercalate_cons_cons, h]

/-- The path that the store is asked for by a note. -/
def Note.asked? : Note → Option String
  | .reading path => some path
  | _ => none

namespace Store

/-- An envelope: a payload of version 2 of the engine with metadata. -/
def IsEnvelope (kvV2 : Bool) (payload : Secret) : Prop :=
  kvV2 = true ∧ payload.has metadataKey = true

/-- An envelope around nothing: its secret was deleted. -/
def IsDeleted (kvV2 : Bool) (payload : Secret) : Prop :=
  IsEnvelope kvV2 payload ∧ payload.get? payloadKey = some .null

/-- The secret in a payload: what an envelope is put around, and otherwise the payload itself. -/
inductive Contents (kvV2 : Bool) (payload : Secret) : Secret → Prop where
  | wrapped {inner : Secret} (envelope : IsEnvelope kvV2 payload)
      (wraps : payload.get? payloadKey = some (.object inner)) : Contents kvV2 payload inner
  | bare (plain : ¬ IsEnvelope kvV2 payload) : Contents kvV2 payload payload
  /-- What an envelope would be put around is no object, and not null. -/
  | odd (envelope : IsEnvelope kvV2 payload)
      (other : ∀ inner, payload.get? payloadKey ≠ some (.object inner))
      (present : payload.get? payloadKey ≠ some .null) : Contents kvV2 payload payload

/-- An envelope is unwrapped by what it is put around. -/
theorem unwrap_envelope {kvV2 : Bool} {payload : Secret} (h : IsEnvelope kvV2 payload) :
    unwrap kvV2 payload =
      match payload.get? payloadKey with
      | some (.object inner) => some inner
      | some .null => none
      | _ => some payload := by
  have hguard : ¬ (!kvV2 || !payload.has metadataKey) = true := by simp [h.1, h.2]
  exact if_neg hguard

/-- Without an envelope there is nothing to unwrap. -/
theorem unwrap_bare {kvV2 : Bool} {payload : Secret} (h : ¬ IsEnvelope kvV2 payload) :
    unwrap kvV2 payload = some payload := by
  have hguard : (!kvV2 || !payload.has metadataKey) = true := by
    apply Decidable.byContradiction
    intro hguard
    apply h
    simpa [IsEnvelope] using hguard
  exact if_pos hguard

/-- Unwrapping gives the secret in a payload. -/
theorem unwrap_eq_some_iff {kvV2 : Bool} {payload secret : Secret} :
    unwrap kvV2 payload = some secret ↔ Contents kvV2 payload secret := by
  by_cases henvelope : IsEnvelope kvV2 payload
  · rw [unwrap_envelope henvelope]
    constructor
    · intro h
      split at h
      · rename_i inner hwraps
        cases h
        exact .wrapped henvelope hwraps
      · cases h
      · rename_i hobject hnull
        cases h
        exact .odd henvelope hobject hnull
    · intro h
      cases h with
      | wrapped _ wraps => simp [wraps]
      | bare plain => exact absurd henvelope plain
      | odd _ other present =>
        split
        · rename_i inner hwraps
          exact absurd hwraps (other inner)
        · rename_i hnull
          exact absurd hnull present
        · rfl
  · rw [unwrap_bare henvelope, Option.some.injEq]
    constructor
    · rintro rfl
      exact .bare henvelope
    · intro h
      cases h with
      | wrapped envelope _ => exact absurd envelope henvelope
      | bare _ => rfl
      | odd _ _ _ => rfl

/-- Unwrapping gives nothing exactly for a deleted secret. -/
theorem unwrap_eq_none_iff {kvV2 : Bool} {payload : Secret} :
    unwrap kvV2 payload = none ↔ IsDeleted kvV2 payload := by
  by_cases henvelope : IsEnvelope kvV2 payload
  · rw [unwrap_envelope henvelope]
    split <;> simp_all [IsDeleted]
  · simp [unwrap_bare henvelope, IsDeleted, henvelope]

/-- An answer brings data: status 200, and a body that spells an answer with them. -/
def Answer.Brings (answer : Answer) (data : Option Secret) : Prop :=
  ∃ body warnings, answer = .complete 200 body ∧
    (Node.Document.ofBytes body).read (Response.ofNode Response.readSecret) = .ok ⟨data, warnings⟩

/-- An answer holds a secret: it brings a payload with the secret in it. -/
def Answer.Holds (answer : Answer) (kvV2 : Bool) (secret : Secret) : Prop :=
  ∃ payload, answer.Brings (some payload) ∧ Contents kvV2 payload secret

/-- An answer says that there is no secret. -/
inductive Answer.Empty (kvV2 : Bool) : Answer → Prop where
  | noContent (body : ByteArray) : Answer.Empty kvV2 (.complete 204 body)
  | notFound (body : ByteArray) : Answer.Empty kvV2 (.complete 404 body)
  | noData {answer : Answer} (brings : answer.Brings none) : Answer.Empty kvV2 answer
  | deleted {answer : Answer} {payload : Secret} (brings : answer.Brings (some payload))
      (deleted : IsDeleted kvV2 payload) : Answer.Empty kvV2 answer

namespace Client

variable {client : Client} {path : String} {request : Request} {answer : Answer}

/-- A body is data exactly when it spells an answer with them. -/
theorem readBody_eq_ok_iff {body : ByteArray} {data : Option Secret} :
    (readBody Response.readSecret path body).1 = .ok data ↔
      (Answer.complete 200 body).Brings data := by
  unfold readBody Answer.Brings
  cases hread : (Node.Document.ofBytes body).read (Response.ofNode Response.readSecret) with
  | error fault => simp [hread]
  | ok response =>
    obtain ⟨found, warnings⟩ := response
    simp [hread]

/-- A request that is sent comes to data exactly when its answer brings them, or says by its
status that there are none. -/
theorem get_eq_ok_iff (sendable : client.request? path = some request) {data : Option Secret} :
    (client.get Response.readSecret path answer).result = .ok data ↔
      answer.Brings data ∨
        data = none ∧ ∃ body, answer = .complete 204 body ∨ answer = .complete 404 body := by
  cases answer with
  | complete status body =>
    simp only [get, sendable, readAnswer]
    by_cases hgood : status = 200
    · subst hgood
      simp [readBody_eq_ok_iff]
    · have hbrings : ¬ (Answer.complete status body).Brings data := by
        rintro ⟨_, _, hcomplete, _⟩
        exact hgood (Answer.complete.inj hcomplete).1
      by_cases hnone : status = 204 ∨ status = 404
      · rcases hnone with rfl | rfl <;> simp [hbrings, eq_comm]
      · obtain ⟨h204, h404⟩ := not_or.mp hnone
        by_cases hforbidden : status = 403
        · subst hforbidden
          simp [hbrings]
        · simp [hgood, h204, h404, hforbidden, hbrings]
  | broken reason => simp [get, sendable, Answer.Brings]
  | silent => simp [get, sendable, Answer.Brings]

/-- What a failed request says does not begin as the report of a missing secret does. -/
theorem head?_of_get (sendable : client.request? path = some request) {causes : Causes}
    (failed : (client.get Response.readSecret path answer).result = .error causes) :
    causes.message.toList.head? = some 'f' ∨ causes.message.toList.head? = some 'r' := by
  have hfailed : ∀ reason,
      (client.requestFailed path reason).message.toList.head? = some 'r' := by
    intro reason
    apply Causes.head?_message
    simp
  cases answer with
  | complete status body =>
    simp only [get, sendable, readAnswer] at failed
    split at failed
    · unfold readBody at failed
      split at failed
      · cases failed
      · cases failed
        exact .inl (Causes.head?_message _ (by simp))
    · split at failed
      · cases failed
      · split at failed
        · cases failed
          exact .inl (Causes.head?_message _ (by simp))
        · cases failed
          exact .inr (Causes.head?_message _ (by simp))
  | broken reason =>
    simp only [get, sendable, Except.error.injEq] at failed
    exact .inr (failed ▸ hfailed reason)
  | silent =>
    simp only [get, sendable, Except.error.injEq] at failed
    exact .inr (failed ▸ hfailed "timed out")

/-- What is read is what was asked for, unwrapped. -/
theorem read_result (client : Client) (path : String) (answer : Answer) :
    (client.read path answer).result =
      (client.get Response.readSecret (apiPath client.kvV2 path) answer).result.map fun payload =>
        payload.bind (unwrap client.kvV2) :=
  rfl

/-- What a read comes to is settled by what was asked for. -/
theorem reply_cases (client : Client) (path : String) (answer : Answer) :
    (∃ causes,
      (client.get Response.readSecret (apiPath client.kvV2 path) answer).result = .error causes ∧
        (client.read path answer).reply = .failed causes) ∨
    ((client.get Response.readSecret (apiPath client.kvV2 path) answer).result = .ok none ∧
      (client.read path answer).reply = .nothing) ∨
    ∃ payload,
      (client.get Response.readSecret (apiPath client.kvV2 path) answer).result =
          .ok (some payload) ∧
        (client.read path answer).reply =
          (unwrap client.kvV2 payload).elim .nothing .secret := by
  simp only [Exchange.reply, read_result]
  cases (client.get Response.readSecret (apiPath client.kvV2 path) answer).result with
  | error causes => exact .inl ⟨causes, rfl, rfl⟩
  | ok data =>
    cases data with
    | none => exact .inr (.inl ⟨rfl, rfl⟩)
    | some payload =>
      refine .inr (.inr ⟨payload, rfl, ?_⟩)
      cases hunwrap : unwrap client.kvV2 payload <;> simp [Except.map, hunwrap]

/-- A read comes to a secret exactly when the answer holds it. -/
theorem reply_eq_secret_iff (sendable : client.request? (apiPath client.kvV2 path) = some request)
    {secret : Secret} :
    (client.read path answer).reply = .secret secret ↔ answer.Holds client.kvV2 secret := by
  have hbrings : ∀ payload, answer.Brings (some payload) ↔
      (client.get Response.readSecret (apiPath client.kvV2 path) answer).result =
        .ok (some payload) := by
    intro payload
    simp [get_eq_ok_iff sendable]
  simp only [Answer.Holds, hbrings, ← unwrap_eq_some_iff]
  rcases reply_cases client path answer with ⟨causes, hget, hreply⟩ | ⟨hget, hreply⟩ |
    ⟨payload, hget, hreply⟩
  · simp [hget, hreply]
  · simp [hget, hreply]
  · rw [hget, hreply]
    cases hunwrap : unwrap client.kvV2 payload <;> simp [hunwrap]

/-- A read comes to nothing exactly when the answer says that there is no secret. -/
theorem reply_eq_nothing_iff
    (sendable : client.request? (apiPath client.kvV2 path) = some request) :
    (client.read path answer).reply = .nothing ↔ answer.Empty client.kvV2 := by
  have hempty : answer.Empty client.kvV2 ↔
      (client.get Response.readSecret (apiPath client.kvV2 path) answer).result = .ok none ∨
        ∃ payload, (client.get Response.readSecret (apiPath client.kvV2 path) answer).result =
          .ok (some payload) ∧ unwrap client.kvV2 payload = none := by
    simp only [get_eq_ok_iff sendable, unwrap_eq_none_iff, true_and]
    constructor
    · intro h
      cases h with
      | noContent body => exact .inl (.inr ⟨body, .inl rfl⟩)
      | notFound body => exact .inl (.inr ⟨body, .inr rfl⟩)
      | noData brings => exact .inl (.inl brings)
      | deleted brings deleted => exact .inr ⟨_, .inl brings, deleted⟩
    · rintro ((hbrings | ⟨body, rfl | rfl⟩) | ⟨payload, hbrings | ⟨hnone, -⟩, hdeleted⟩)
      · exact .noData hbrings
      · exact .noContent body
      · exact .notFound body
      · exact .deleted hbrings hdeleted
      · cases hnone
  rw [hempty]
  rcases reply_cases client path answer with ⟨causes, hget, hreply⟩ | ⟨hget, hreply⟩ |
    ⟨payload, hget, hreply⟩
  · simp [hget, hreply]
  · simp [hget, hreply]
  · rw [hget, hreply]
    cases hunwrap : unwrap client.kvV2 payload <;> simp [hunwrap]

/-- What a failed read says does not begin as the report of a missing secret does. -/
theorem head?_of_reply (sendable : client.request? (apiPath client.kvV2 path) = some request)
    {causes : Causes} (failed : (client.read path answer).reply = .failed causes) :
    causes.message.toList.head? = some 'f' ∨ causes.message.toList.head? = some 'r' := by
  rcases reply_cases client path answer with ⟨found, hget, hreply⟩ | ⟨-, hreply⟩ |
    ⟨payload, -, hreply⟩
  · obtain rfl := Reply.failed.inj (hreply.symm.trans failed)
    exact head?_of_get sendable hget
  · cases hreply.symm.trans failed
  · rw [hreply] at failed
    cases hunwrap : unwrap client.kvV2 payload <;> simp [hunwrap] at failed

/-- A request goes to the address that is spelled for its path, with the token of the client. -/
theorem url_token_of_request (sendable : client.request? path = some request) :
    Url.parse? (client.addressOf path) = some request.url ∧ request.token = client.token := by
  unfold request? at sendable
  split at sendable
  · obtain ⟨url, hurl, rfl⟩ := Option.map_eq_some_iff.mp sendable
    exact ⟨hurl, rfl⟩
  · cases sendable

/-- What a read sends does not depend on the answer. -/
theorem request_of_read (client : Client) (path : String) (answer : Answer) :
    (client.read path answer).request = client.request? (apiPath client.kvV2 path) := by
  cases hrequest : client.request? (apiPath client.kvV2 path) with
  | none => simp [read, get, hrequest]
  | some request => cases answer <;> simp [read, get, hrequest]

/-- A read sends the request that was found for it. -/
theorem request_read (sendable : client.request? (apiPath client.kvV2 path) = some request) :
    (client.read path answer).request = some request :=
  (request_of_read client path answer).trans sendable

/-- The warnings of an answer ask for nothing. -/
theorem asked_warnings (path : String) (warnings : Option (List String)) :
    (warningNotes path warnings).filterMap Note.asked? = [] := by
  unfold warningNotes
  split <;> rfl

/-- An answer asks for nothing. -/
theorem asked_get (client : Client) (target : String) (answer : Answer) :
    (client.get Response.readSecret target answer).notes.filterMap Note.asked? = [] := by
  unfold get
  cases client.request? target with
  | none => rfl
  | some request =>
    cases answer with
    | complete status body =>
      by_cases hgood : status = 200
      · subst hgood
        simp only [readAnswer, readBody, beq_self_eq_true, if_true]
        split
        · exact asked_warnings _ _
        · rfl
      · simp only [readAnswer, beq_eq_false_iff_ne.mpr hgood, Bool.false_eq_true, if_false]
        repeat' split
        all_goals rfl
    | broken reason => rfl
    | silent => rfl

/-- A read notes once that it asks the store. -/
theorem asked_read (client : Client) (path : String) (answer : Answer) :
    (client.read path answer).notes.filterMap Note.asked? = [apiPath client.kvV2 path] := by
  simp only [read, List.filterMap_cons, Note.asked?, asked_get]

end Client

end Store

end FreshKeys
