import FreshKeys.Proofs.Json.Likeness
import FreshKeys.Proofs.Refresh.Secrecy
import FreshKeys.Proofs.Store.Retrieval

/-!
# Answers that differ in what is not shown

Two answers are written alike but for the texts under the tracked names: the secret key may be any
other text, and the access key id one that is shown the same. Whatever else is in them, both hold a
secret or neither does, and a call that is answered by either returns pairs that are shown the same,
or fails for both.
-/

namespace FreshKeys

open Json (BothRead Members Node)
open Json.Node (Document Member ObjectAlike readMembers readValue)
open Refresh (Cache Call)

namespace Store

/-- Two texts under a key that is tracked; access key ids are shown the same. -/
inductive TextAlike (p : Profile) (key : String) : Node → Node → Prop where
  | text {text text' : String} (tracked : key = p.accessKeyName ∨ key = p.secretKeyName)
      (shown : key = p.accessKeyName → KeyPair.ShownAlike text text') :
    TextAlike p key (.text (some text)) (.text (some text'))

/-- Two such texts, or two secrets in envelopes that are the same but for such texts. -/
inductive ContentsAlike (p : Profile) (key : String) : Node → Node → Prop where
  | bare {node node' : Node} (h : TextAlike p key node node') : ContentsAlike p key node node'
  | wrapped {node node' : Node} (data : key = payloadKey)
      (h : ObjectAlike (TextAlike p) node node') : ContentsAlike p key node node'

/-- Two records of an answer that are the same but for such texts in their data. -/
inductive RecordAlike (p : Profile) : Node → Node → Prop where
  | same (node : Node) : RecordAlike p node node
  | object {node node' : Node}
      (h : ObjectAlike (fun key data data' =>
        key = Response.Field.data.name ∧ ObjectAlike (ContentsAlike p) data data') node node') :
    RecordAlike p node node'
  | array {data data' : Node} (items : List Node) (closed : Bool)
      (h : ObjectAlike (ContentsAlike p) data data') :
    RecordAlike p (.array (data :: items) closed) (.array (data' :: items) closed)

/-- Two answers that differ only in the texts under the tracked names, and in an access key id only
behind what is shown of it; or that hold secrets of which this is true of what is tracked. -/
inductive Answer.Alike (p : Profile) : Answer → Answer → Prop where
  | same (answer : Answer) : Answer.Alike p answer answer
  | written (status : Nat) {body body' : ByteArray}
      (ended : (Document.ofBytes body).ended = (Document.ofBytes body').ended)
      (root : RecordAlike p (Document.ofBytes body).root (Document.ofBytes body').root) :
    Answer.Alike p (.complete status body) (.complete status body')
  | held {answer answer' : Answer} {secret secret' : Secret} (holds : answer.Holds p.kvV2 secret)
      (holds' : answer'.Holds p.kvV2 secret') (h : secret.Alike p secret') :
    Answer.Alike p answer answer'

/-- Two texts under a key, shown the same if it is that of the access key. -/
def ValueAlike (p : Profile) (key : String) (value value' : Json) : Prop :=
  ∃ text text', value = .text text ∧ value' = .text text' ∧
    (key = p.accessKeyName → KeyPair.ShownAlike text text')

/-- Two such texts, or two objects that are the same but for such texts. -/
def PayloadAlike (p : Profile) (key : String) (value value' : Json) : Prop :=
  ValueAlike p key value value' ∨ ∃ members members' : Members,
    value = .object members ∧ value' = .object members' ∧ members.Alike (ValueAlike p) members'

variable {p : Profile}

/-- Texts that are alike are read as such values. -/
theorem readValue_textAlike {key : String} {node node' : Node} (h : TextAlike p key node node')
    (depth : Nat) : BothRead (ValueAlike p key) (readValue depth node) (readValue depth node') := by
  obtain ⟨-, hshown⟩ := h
  cases depth <;> exact .read ⟨_, _, rfl, rfl, hshown⟩

/-- What may stand under a tracked name is read alike, as a text or as an object. -/
theorem readValue_contentsAlike {key : String} {node node' : Node}
    (h : ContentsAlike p key node node') (depth : Nat) :
    BothRead (PayloadAlike p key) (readValue depth node) (readValue depth node') := by
  cases h with
  | bare h => exact (readValue_textAlike h depth).mono .inl
  | wrapped _ h =>
    have hvalues := Node.readValue_alike (V := ValueAlike p)
      (fun _ _ _ htext => readValue_textAlike htext) h depth
    exact hvalues.mono .inr

/-- Values that are alike have the same shape, and texts that are shown the same. -/
theorem fieldAlike_of_payloadAlike {textsAlike : String → String → Prop} {key : String}
    {field field' : Option Json} (hrefl : ∀ text, textsAlike text text)
    (htexts : ∀ text text', (key = p.accessKeyName → KeyPair.ShownAlike text text') →
      textsAlike text text')
    (h : Option.Rel (fun value value' => value = value' ∨ PayloadAlike p key value value')
      field field') : Secret.FieldAlike textsAlike field field' := by
  cases h with
  | none => exact .missing
  | some h =>
    rcases h with rfl | ⟨text, text', rfl, rfl, hshown⟩ | ⟨members, members', rfl, rfl, -⟩
    · exact .refl hrefl _
    · exact .text (htexts text text' hshown)
    · exact .notText rfl rfl

/-- Payloads that are alike are so as secrets. -/
theorem secretAlike_of_payloadAlike {payload payload' : Secret}
    (h : Members.Alike (PayloadAlike p) payload payload') : payload.Alike p payload' where
  accessKey := fieldAlike_of_payloadAlike (fun _ => ⟨rfl, rfl⟩) (fun _ _ hshown => hshown rfl)
    (h p.accessKeyName)
  secretKey := fieldAlike_of_payloadAlike (fun _ => trivial) (fun _ _ _ => trivial)
    (h p.secretKeyName)

/-- What is in payloads that are alike is so too, or missing from both. -/
theorem unwrap_alike {payload payload' : Secret}
    (h : Members.Alike (PayloadAlike p) payload payload') (kvV2 : Bool) :
    Option.Rel (Secret.Alike p) (unwrap kvV2 payload) (unwrap kvV2 payload') := by
  have hpayload : Option.Rel (Secret.Alike p) (some payload) (some payload') :=
    .some (secretAlike_of_payloadAlike h)
  have hdata := h payloadKey
  unfold unwrap
  rw [← h.has_eq metadataKey]
  split
  · exact hpayload
  · generalize payload.get? payloadKey = data, payload'.get? payloadKey = data' at hdata
    cases hdata with
    | none => exact hpayload
    | some hdata =>
      rcases hdata with rfl | ⟨text, text', rfl, rfl, -⟩ | ⟨inner, inner', rfl, rfl, hinner⟩
      · split
        · exact .some (.refl p _)
        · exact .none
        · exact hpayload
      · exact hpayload
      · exact .some (secretAlike_of_payloadAlike (hinner.mono .inl))

/-- Data that are payloads alike, or missing from both answers. -/
abbrev DataAlike (p : Profile) : Option Secret → Option Secret → Prop :=
  Option.Rel (Members.Alike (PayloadAlike p))

/-- Data are like themselves. -/
theorem DataAlike.refl (p : Profile) (data : Option Secret) : DataAlike p data data := by
  cases data with
  | none => exact .none
  | some payload => exact .some (.refl _ payload)

/-- Drafts of answers that are the same but for data that are alike. -/
structure DraftAlike (p : Profile) (draft draft' : Response.Draft Secret) : Prop where
  data : Option.Rel (DataAlike p) draft.data draft'.data
  warnings : draft.warnings = draft'.warnings

/-- Drafts that are alike have been given the same fields. -/
theorem DraftAlike.has_eq {draft draft' : Response.Draft Secret} (h : DraftAlike p draft draft')
    (field : Response.Field) : draft.has field = draft'.has field := by
  obtain ⟨data, warnings⟩ := draft
  obtain ⟨data', warnings'⟩ := draft'
  obtain ⟨hdata, rfl⟩ := h
  cases field with
  | warnings => rfl
  | data => cases hdata <;> rfl

/-- Data that are written alike are read so. -/
theorem readData_alike {data data' : Node} (h : ObjectAlike (ContentsAlike p) data data') :
    BothRead (DataAlike p) (Node.readOption Response.readSecret data)
      (Node.readOption Response.readSecret data') := by
  have hmembers := Node.readMembers_alike (V := PayloadAlike p)
    (fun _ _ _ hcontents => readValue_contentsAlike hcontents) h Response.dataDepth
  obtain ⟨closed, -⟩ := h
  exact hmembers.map .some

/-- A field is put into drafts that are alike, its value the same. -/
theorem put_alike {draft draft' : Response.Draft Secret} (h : DraftAlike p draft draft')
    (field : Response.Field) (node : Node) :
    BothRead (DraftAlike p) (draft.put Response.readSecret field node)
      (draft'.put Response.readSecret field node) := by
  cases field with
  | data =>
    exact (BothRead.refl (DataAlike.refl p) _).map fun hdata => ⟨.some hdata, h.warnings⟩
  | warnings =>
    refine (BothRead.refl (R := Eq) (fun _ => rfl) _).map ?_
    rintro warnings _ rfl
    exact ⟨h.data, rfl⟩

/-- Data are put into them that are alike. -/
theorem put_data_alike {draft draft' : Response.Draft Secret} (h : DraftAlike p draft draft')
    {data data' : Node} (hdata : ObjectAlike (ContentsAlike p) data data') :
    BothRead (DraftAlike p) (draft.put Response.readSecret .data data)
      (draft'.put Response.readSecret .data data') :=
  (readData_alike hdata).map fun hread => ⟨.some hread, h.warnings⟩

/-- How the fields of an answer are read. -/
abbrev recordFields : Node.Fields Response.Field (Response.Draft Secret) :=
  ⟨Response.Field.named?, Response.Draft.has, Response.Draft.put Response.readSecret⟩

/-- Answers that are written as objects are read alike, member by member. -/
theorem collect_alike {members members' : List Member}
    (h : List.Forall₂ (Node.MemberAlike fun key data data' =>
      key = Response.Field.data.name ∧ ObjectAlike (ContentsAlike p) data data') members members')
    {draft draft' : Response.Draft Secret} (hdraft : DraftAlike p draft draft') :
    BothRead (DraftAlike p) (recordFields.collect draft members)
      (recordFields.collect draft' members') := by
  induction h generalizing draft draft' with
  | nil => exact .read hdraft
  | @cons member member' rest rest' hmember _ ih =>
    cases hmember with
    | same =>
      obtain ⟨key, node⟩ := member
      cases key with
      | none => exact .failed _ _
      | some key =>
        simp only [Node.Fields.collect]
        cases Response.Field.named? key with
        | none =>
          dsimp only
          split
          · exact ih hdraft
          · exact .failed _ _
        | some field =>
          simp only [hdraft.has_eq field]
          split
          · exact .failed _ _
          · exact (put_alike hdraft field node).bind ih
    | changed hdata =>
      obtain ⟨rfl, hdata⟩ := hdata
      have hfield : Response.Field.named? Response.Field.data.name = some .data := rfl
      simp only [Node.Fields.collect, hfield, hdraft.has_eq .data]
      split
      · exact .failed _ _
      · exact (put_data_alike hdraft hdata).bind ih

/-- The fields of an answer that is written as an array are read into drafts alike. -/
theorem fill_alike (due : List Response.Field) (items : List Node)
    {draft draft' : Response.Draft Secret} (hdraft : DraftAlike p draft draft') :
    BothRead (fun filled filled' => DraftAlike p filled.1 filled'.1 ∧ filled.2 = filled'.2)
      (recordFields.fill draft due items) (recordFields.fill draft' due items) := by
  induction due generalizing draft draft' items with
  | nil => cases items <;> exact .read ⟨hdraft, rfl⟩
  | cons field due ih =>
    cases items with
    | nil => exact .read ⟨hdraft, rfl⟩
    | cons node items => exact (put_alike hdraft field node).bind (ih items)

/-- Drafts that are alike have data that are. -/
theorem DraftAlike.close {draft draft' : Response.Draft Secret} (h : DraftAlike p draft draft') :
    DataAlike p draft.close.data draft'.close.data := by
  obtain ⟨data, warnings⟩ := draft
  obtain ⟨data', warnings'⟩ := draft'
  obtain ⟨hdata, -⟩ := h
  cases hdata with
  | none => exact .none
  | some hdata => exact hdata

/-- Records that are written alike are read with data that are alike, or neither is. -/
theorem readRecord_alike {node node' : Node} (h : RecordAlike p node node') :
    BothRead (fun response response' => DataAlike p response.data response'.data)
      (Response.ofNode Response.readSecret node) (Response.ofNode Response.readSecret node') := by
  have hempty : DraftAlike p ⟨none, none⟩ ⟨none, none⟩ := ⟨.none, rfl⟩
  cases h with
  | same => exact BothRead.refl (fun response => .refl p response.data) _
  | object h =>
    obtain ⟨closed, hmembers⟩ := h
    refine (collect_alike hmembers hempty).bind fun hdraft => ?_
    cases closed with
    | true => exact .read hdraft.close
    | false => exact .failed _ _
  | @array data data' items closed h =>
    have hfilled : BothRead
        (fun filled filled' => DraftAlike p filled.1 filled'.1 ∧ filled.2 = filled'.2)
        (recordFields.fill ⟨none, none⟩ Response.Field.all (data :: items))
        (recordFields.fill ⟨none, none⟩ Response.Field.all (data' :: items)) :=
      (put_data_alike hempty h).bind (fill_alike [.warnings] items)
    refine hfilled.bind ?_
    rintro ⟨draft, due, extra⟩ ⟨draft', _, _⟩ ⟨hdraft, ⟨⟩⟩
    dsimp only
    split
    · exact .failed _ _
    · split
      · exact .read hdraft.close
      · exact .failed _ _

/-- So are whole bodies. -/
theorem readBody_alike {body body' : ByteArray}
    (ended : (Document.ofBytes body).ended = (Document.ofBytes body').ended)
    (root : RecordAlike p (Document.ofBytes body).root (Document.ofBytes body').root) :
    BothRead (fun response response' => DataAlike p response.data response'.data)
      ((Document.ofBytes body).read (Response.ofNode Response.readSecret))
      ((Document.ofBytes body').read (Response.ofNode Response.readSecret)) := by
  refine (readRecord_alike root).bind fun hdata => ?_
  rw [ended]
  split
  · exact .read hdata
  · exact .failed _ _

/-- What an answer with status 200 holds is in the payload that is read from its body. -/
theorem holds_complete_iff {body : ByteArray} {kvV2 : Bool} {secret : Secret} :
    (Answer.complete 200 body).Holds kvV2 secret ↔
      ∃ payload warnings, (Document.ofBytes body).read (Response.ofNode Response.readSecret) =
        .ok ⟨some payload, warnings⟩ ∧ unwrap kvV2 payload = some secret := by
  simp only [Answer.Holds, Answer.Brings, unwrap_eq_some_iff]
  constructor
  · rintro ⟨payload, ⟨_, warnings, ⟨⟩, hread⟩, hcontents⟩
    exact ⟨payload, warnings, hread, hcontents⟩
  · rintro ⟨payload, warnings, hread, hcontents⟩
    exact ⟨payload, ⟨body, warnings, rfl, hread⟩, hcontents⟩

/-- Two answers hold secrets that are alike, or neither holds any. -/
def HoldAlike (p : Profile) (answer answer' : Answer) : Prop :=
  (∃ secret secret', answer.Holds p.kvV2 secret ∧ answer'.Holds p.kvV2 secret' ∧
      secret.Alike p secret') ∨
    ∀ secret, ¬ answer.Holds p.kvV2 secret ∧ ¬ answer'.Holds p.kvV2 secret

/-- An answer is like itself in what it holds. -/
theorem HoldAlike.refl (p : Profile) (answer : Answer) : HoldAlike p answer answer := by
  by_cases hholds : ∃ secret, answer.Holds p.kvV2 secret
  · obtain ⟨secret, hsecret⟩ := hholds
    exact .inl ⟨secret, secret, hsecret, hsecret, .refl p secret⟩
  · rw [not_exists] at hholds
    exact .inr fun secret => ⟨hholds secret, hholds secret⟩

/-- Answers whose bodies are written alike hold secrets that are alike. -/
theorem holdAlike_complete {body body' : ByteArray}
    (ended : (Document.ofBytes body).ended = (Document.ofBytes body').ended)
    (root : RecordAlike p (Document.ofBytes body).root (Document.ofBytes body').root) :
    HoldAlike p (.complete 200 body) (.complete 200 body') := by
  have hread := readBody_alike ended root
  simp only [HoldAlike, holds_complete_iff]
  generalize (Document.ofBytes body).read (Response.ofNode Response.readSecret) = response,
    (Document.ofBytes body').read (Response.ofNode Response.readSecret) = response' at hread
  cases hread with
  | failed fault fault' => simp
  | @read response response' hdata =>
    obtain ⟨data, warnings⟩ := response
    obtain ⟨data', warnings'⟩ := response'
    cases hdata with
    | none => simp
    | @some payload payload' hpayload =>
      have hunwrap := unwrap_alike hpayload p.kvV2
      generalize hfound : unwrap p.kvV2 payload = found,
        hfound' : unwrap p.kvV2 payload' = found' at hunwrap
      cases hunwrap with
      | none => simp [hfound, hfound']
      | some halike => exact .inl ⟨_, _, ⟨_, _, rfl, hfound⟩, ⟨_, _, rfl, hfound'⟩, halike⟩

/-- Answers that are alike hold secrets that are, or neither of them holds one. -/
theorem Answer.Alike.holdAlike {answer answer' : Answer} (h : answer.Alike p answer') :
    HoldAlike p answer answer' := by
  cases h with
  | same => exact .refl p answer
  | held holds holds' halike => exact .inl ⟨_, _, holds, holds', halike⟩
  | @written status body body' ended root =>
    by_cases hgood : status = 200
    · subst hgood
      exact holdAlike_complete ended root
    · have hnone : ∀ body secret, ¬ (Answer.complete status body).Holds p.kvV2 secret := by
        rintro body secret ⟨-, ⟨_, -, hcomplete, -⟩, -⟩
        exact hgood (Answer.complete.inj hcomplete).1
      exact .inr fun secret => ⟨hnone body secret, hnone body' secret⟩

end Store

namespace Vault

variable {client : Store.Client} {p : Profile} {answer answer' : Store.Answer}

/-- What may be shown of the pair of an outcome, if there is one. -/
def shown (outcome : Outcome) : Option KeyPair := outcome.pair?.map KeyPair.veil

/-- What may be shown of a pair is settled by what is merged, under the veil. -/
theorem shown_absorb (c : Cache) (secret : Secret) :
    shown (c.absorb (.ok secret)).2 =
      ((c.tracked.merge secret).map TrackedPair.veil).toOption.map TrackedPair.pair := by
  cases hmerge : c.tracked.merge secret <;> simp only [Cache.absorb, hmerge] <;> rfl

/-- Without a request a read does not depend on the answer. -/
theorem read_of_unsendable {path : String}
    (unsendable : client.request? (Store.apiPath client.kvV2 path) = none)
    (answer answer' : Store.Answer) : client.read path answer = client.read path answer' := by
  simp only [Store.Client.read, Store.Client.get, unsendable]

/-- No pair comes of an answer that holds no secret. -/
theorem shown_eq_none {request : Store.Request}
    (sendable : client.request? (Store.apiPath client.kvV2 p.secretPath) = some request)
    (hnone : ∀ secret, ¬ answer.Holds client.kvV2 secret) (c : Cache) :
    shown (c.absorb (fetched p (client.read p.secretPath answer))).2 = none := by
  cases hfetched : fetched p (client.read p.secretPath answer) with
  | error failure => rfl
  | ok secret => exact absurd ((fetched_eq_ok_iff sendable).mp hfetched) (hnone secret)

/-- The first call of a vault returns pairs that are shown the same, or none, when answers are
alike. -/
theorem shown_eq_of_alike (version : client.kvV2 = p.kvV2) (h : answer.Alike p answer')
    (call : Call) :
    shown ((Vault.fresh client p).call call answer).2.outcome =
      shown ((Vault.fresh client p).call call answer').2.outcome := by
  obtain ⟨before, after, -, -, hturn⟩ := call_fresh client p call answer
  obtain ⟨before', after', -, -, hturn'⟩ := call_fresh client p call answer'
  rw [hturn, hturn']
  cases hrequest : client.request? (Store.apiPath client.kvV2 p.secretPath) with
  | none => simp only [read_of_unsendable hrequest answer answer']
  | some request =>
    have hholds := h.holdAlike
    rw [Store.HoldAlike, ← version] at hholds
    rcases hholds with ⟨secret, secret', hsecret, hsecret', halike⟩ | hnone
    · have hmerged : ((Cache.ofProfile p).tracked.merge secret).map TrackedPair.veil =
          ((Cache.ofProfile p).tracked.merge secret').map TrackedPair.veil :=
        halike.merge_eq rfl rfl rfl
      rw [(fetched_eq_ok_iff hrequest).mpr hsecret, (fetched_eq_ok_iff hrequest).mpr hsecret']
      simp only [shown_absorb, hmerged]
    · rw [shown_eq_none hrequest (fun secret => (hnone secret).1),
        shown_eq_none hrequest (fun secret => (hnone secret).2)]

end Vault

end FreshKeys
