import FreshKeys.Proofs.Refresh.History
import FreshKeys.Proofs.Refresh.Providers
import FreshKeys.Proofs.Refresh.Veil

/-!
# Secrets do not show

Two runs in which the source gives other secrets cannot be told apart from outside, as long as the
secrets differ only in what may not be shown: in the secret key, in the access key id behind its
shown characters, in what is not tracked, and in tracked values that are no texts in either. The
journal has the same lines, the same calls return in the same order with the same failures, and the
cache and its handles are valid as long.
-/

namespace FreshKeys

/-- Whether two texts look the same as access key ids: so many characters, and the same shown. -/
def KeyPair.ShownAlike (id id' : String) : Prop :=
  id.length = id'.length ∧ id.toList.take shownLength = id'.toList.take shownLength

/-- Whether two texts are shown alike is decided by comparing what is shown of them. -/
instance (id id' : String) : Decidable (KeyPair.ShownAlike id id') :=
  inferInstanceAs (Decidable (_ ∧ _))

/-- Whether two values under a tracked name have the same shape, and texts that are alike. -/
inductive Secret.FieldAlike (textsAlike : String → String → Prop) :
    Option Json → Option Json → Prop where
  | missing : FieldAlike textsAlike none none
  | text {value value' : String} (h : textsAlike value value') :
    FieldAlike textsAlike (some (.text value)) (some (.text value'))
  | notText {value value' : Json} (h : value.text? = none) (h' : value'.text? = none) :
    FieldAlike textsAlike (some value) (some value')

/-- Whether two secrets differ only in what may not be shown, by the names of a profile: any text is
like any other as a secret key. -/
structure Secret.Alike (p : Profile) (secret secret' : Secret) : Prop where
  accessKey : Secret.FieldAlike KeyPair.ShownAlike (secret.get? p.accessKeyName)
    (secret'.get? p.accessKeyName)
  secretKey : Secret.FieldAlike (fun _ _ => True) (secret.get? p.secretKeyName)
    (secret'.get? p.secretKeyName)

/-- A value is like itself if all texts are. -/
theorem Secret.FieldAlike.refl {textsAlike : String → String → Prop}
    (hrefl : ∀ text, textsAlike text text) (field : Option Json) :
    FieldAlike textsAlike field field := by
  match field with
  | none => exact .missing
  | some (.text value) => exact .text (hrefl value)
  | some .null | some (.bool _) | some (.number _) | some (.array _) | some (.object _) =>
    exact .notText rfl rfl

/-- A secret is like itself. -/
theorem Secret.Alike.refl (p : Profile) (secret : Secret) : secret.Alike p secret :=
  ⟨.refl (fun _ => ⟨rfl, rfl⟩) _, .refl (fun _ => trivial) _⟩

/-- Whether two replies differ only in what may not be shown. -/
inductive Reply.Alike (p : Profile) : Reply → Reply → Prop where
  | secret {s s' : Secret} (h : Secret.Alike p s s') : Alike p (.secret s) (.secret s')
  | same (reply : Reply) : Alike p reply reply

/-- Texts that look the same are shown the same. -/
theorem KeyPair.ShownAlike.maskedId_eq {pair pair' : KeyPair}
    (h : ShownAlike pair.accessKeyId pair'.accessKeyId) : pair.maskedId = pair'.maskedId := by
  obtain ⟨hlength, hshown⟩ := h
  have hcount : pair.accessKeyId.toList.length = pair'.accessKeyId.toList.length := by
    rw [String.length_toList, String.length_toList, hlength]
  simp only [maskedId, hshown, hcount]

/-- Values of the same shape are both read as texts, or give the same failure. -/
theorem Secret.text_alike {textsAlike : String → String → Prop} {secret secret' : Secret}
    {name : String} (h : Secret.FieldAlike textsAlike (secret.get? name) (secret'.get? name)) :
    (∃ value value', secret.text name = .ok value ∧ secret'.text name = .ok value' ∧
        textsAlike value value') ∨
      ∃ failure, secret.text name = .error failure ∧ secret'.text name = .error failure := by
  unfold Secret.text
  generalize secret.get? name = field, secret'.get? name = field' at h
  cases h with
  | missing => exact Or.inr ⟨_, rfl, rfl⟩
  | text h => exact Or.inl ⟨_, _, rfl, rfl, h⟩
  | @notText value value' h h' =>
    refine Or.inr ⟨.shapeMismatch name .notText, ?_, ?_⟩
    · cases value with
      | text => cases h
      | _ => rfl
    · cases value' with
      | text => cases h'
      | _ => rfl

/-- What is taken over from alike secrets looks the same, and what is refused of them is refused for
the same reason. -/
theorem Secret.Alike.merge_eq {p : Profile} {tracked tracked' : TrackedPair}
    {secret secret' : Secret} (h : secret.Alike p secret') (hveil : tracked.veil = tracked'.veil)
    (haccess : tracked.accessKey.name = p.accessKeyName)
    (hhidden : tracked.secretKey.name = p.secretKeyName) :
    (tracked.merge secret).map TrackedPair.veil =
      (tracked'.merge secret').map TrackedPair.veil := by
  have haccess' : tracked'.accessKey.name = p.accessKeyName :=
    haccess ▸ (congrArg (fun t => t.accessKey.name) hveil).symm
  have hhidden' : tracked'.secretKey.name = p.secretKeyName :=
    hhidden ▸ (congrArg (fun t => t.secretKey.name) hveil).symm
  unfold TrackedPair.merge
  rw [haccess, haccess', hhidden, hhidden']
  rcases text_alike h.accessKey with ⟨id, id', hid, hid', hshown⟩ | ⟨failure, hfails, hfails'⟩
  · rcases text_alike h.secretKey with ⟨key, key', hkey, hkey', -⟩ | ⟨failure, hfails, hfails'⟩
    · have hmasked : KeyPair.maskedId ⟨id, key, KeyPair.vaultProvider⟩ =
          KeyPair.maskedId ⟨id', key', KeyPair.vaultProvider⟩ :=
        KeyPair.ShownAlike.maskedId_eq hshown
      rw [hid, hid', hkey, hkey']
      simp [bind, Except.bind, Except.map, TrackedPair.veil, TrackedPair.pair, hmasked]
    · rw [hid, hid', hfails, hfails']
      rfl
  · rw [hfails, hfails']
    rfl

/-- So it is with alike replies. -/
theorem Reply.Alike.merge_eq {p : Profile} {tracked tracked' : TrackedPair} {reply reply' : Reply}
    (h : reply.Alike p reply') (hveil : tracked.veil = tracked'.veil)
    (haccess : tracked.accessKey.name = p.accessKeyName)
    (hhidden : tracked.secretKey.name = p.secretKeyName) (path : String) :
    (reply.secret? path >>= tracked.merge).map TrackedPair.veil =
      (reply'.secret? path >>= tracked'.merge).map TrackedPair.veil := by
  have hsame : ∀ {secret secret' : Secret}, secret.Alike p secret' →
      (tracked.merge secret).map TrackedPair.veil = (tracked'.merge secret').map TrackedPair.veil :=
    fun halike => halike.merge_eq hveil haccess hhidden
  cases h with
  | secret h => exact hsame h
  | same =>
    cases reply with
    | secret secret => exact hsame (.refl p secret)
    | nothing => rfl
    | failed causes => rfl

/-- The failure of a bad outcome. -/
def Outcome.failure? : Outcome → Option Failure
  | .pair _ => none
  | .failure f => some f

namespace Refresh

/-- What can be seen of an event and of the provider after it: the lines of the journal, the reads
that began, the calls that returned, each with its failure if it failed, and what the provider and
its handles tell. -/
structure Sighting where
  lines : List Line
  reads : List String
  done : List (Call × Option Failure)
  waiters : ℕ
  expired : Bool
  validUntil : Option ℕ
  handlesExpired : List Bool

/-- Whether two events of a cache differ only in what may not be shown of a secret. -/
inductive Event.Alike (p : Profile) : Event → Event → Prop where
  | answer (call : Call) {reply reply' : Reply} (h : reply.Alike p reply') :
    Alike p (.answer call reply) (.answer call reply')
  | same (event : Event) : Alike p event event

/-- A call that leads ends its refresh in the same way, under the veil, with alike replies. -/
theorem Cache.answer_alike {p : Profile} {c c' : Cache} (hveil : c.veil = c'.veil)
    (haccess : c.tracked.accessKey.name = p.accessKeyName)
    (hhidden : c.tracked.secretKey.name = p.secretKeyName) (call : Call) {reply reply' : Reply}
    (h : reply.Alike p reply') :
    veilStep (c.step (.answer call reply)) = veilStep (c'.step (.answer call reply')) := by
  have hterms : c'.terms = c.terms := (congrArg (fun v : Cache => v.terms) hveil).symm
  have hseat : c'.seatAs? .leader call = c.seatAs? .leader call :=
    (congrArg (fun v : Cache => v.seatAs? .leader call) hveil).symm
  simp only [step, hseat, hterms]
  cases c.seatAs? .leader call with
  | none => exact Prod.ext hveil rfl
  | some seat =>
    have hmerged := h.merge_eq (congrArg (fun v : Cache => v.tracked) hveil) haccess hhidden
      c.terms.path
    simp only [commit_eq_conclude, conclude_veil, hveil, hmerged]

/-- A move keeps the names of the tracked fields. -/
theorem Cache.Move.names_eq {c c' : Cache} {event : Event} {new : List Effect}
    (hmove : Move c event c' new) :
    c'.tracked.accessKey.name = c.tracked.accessKey.name ∧
      c'.tracked.secretKey.name = c.tracked.secretKey.name := by
  rcases hmove.kept_or_taken with ⟨-, htracked, -⟩ |
    ⟨-, s, -, secret, access, hidden, -, -, -, htracked, -⟩
  · exact ⟨by rw [htracked], by rw [htracked]⟩
  · exact ⟨by rw [htracked], by rw [htracked]⟩

namespace Provider

/-- Whether two events of a provider differ only in what may not be shown of a secret. -/
inductive Event.Alike (p : Profile) : Event → Event → Prop where
  | refresh {event event' : Refresh.Event} (h : event.Alike p event') :
    Alike p (.refresh event) (.refresh event')
  | expire (handle : ℕ) : Alike p (.expire handle) (.expire handle)

/-- Whether two providers, by the names of a profile, are the same under the veil. -/
structure Alike (p : Profile) (q q' : Provider) : Prop where
  veil : q.veil = q'.veil
  accessKeyName : q.cache.tracked.accessKey.name = p.accessKeyName
  secretKeyName : q.cache.tracked.secretKey.name = p.secretKeyName

/-- Alike events lead alike providers to the same under the veil. -/
theorem Alike.veilStep_eq {p : Profile} {q q' : Provider} {event event' : Event}
    (h : Alike p q q') (hevent : event.Alike p event') :
    veilStep (q.step event) = veilStep (q'.step event') := by
  have hsame : ∀ event, (∀ call reply, event ≠ .refresh (.answer call reply)) →
      veilStep (q.step event) = veilStep (q'.step event) := by
    intro event hquiet
    rw [step_veil _ hquiet, step_veil _ hquiet, h.veil]
  have hanswer : ∀ call {reply reply' : Reply}, reply.Alike p reply' →
      veilStep (q.step (.refresh (.answer call reply))) =
        veilStep (q'.step (.refresh (.answer call reply'))) := by
    intro call reply reply' halike
    have hcache := Cache.answer_alike (congrArg (fun v : Provider => v.cache) h.veil)
      h.accessKeyName h.secretKeyName call halike
    simp only [step, refresh_eq, hcache, h.veil]
  cases hevent with
  | expire handle => exact hsame _ (by simp)
  | @refresh happened _ hevent =>
    cases hevent with
    | answer call halike => exact hanswer call halike
    | same =>
      cases happened with
      | answer call reply => exact hanswer call (.same reply)
      | _ => exact hsame _ (by simp)

/-- Alike providers stay alike. -/
theorem Alike.step {p : Profile} {q q' : Provider} {event event' : Event} (h : Alike p q q')
    (hevent : event.Alike p event') : Alike p (q.step event).1 (q'.step event').1 := by
  obtain ⟨happened, asides, moved, hmove, -⟩ := (q.step_move event).cache_move
  obtain ⟨haccess, hhidden⟩ := hmove.names_eq
  exact ⟨congrArg Prod.fst (h.veilStep_eq hevent), haccess.trans h.accessKeyName,
    hhidden.trans h.secretKeyName⟩

/-- What can be seen of a provider, given what an event led to. -/
def sighting (q : Provider) (effects : List Effect) : Sighting where
  lines := (effects.filterMap Effect.note?).map Note.line
  reads := effects.filterMap Effect.read?
  done := (effects.filterMap Effect.return?).map fun r => (r.1, r.2.failure?)
  waiters := q.cache.cohort.waiters
  expired := q.isExpired
  validUntil := q.cache.window.validUntil
  handlesExpired := (List.range q.slots.length).map q.isHandleExpired

/-- What can be seen of a run, event by event. -/
def sightings (q : Provider) : List Event → List Sighting
  | [] => []
  | event :: rest =>
    let (next, effects) := q.step event
    next.sighting effects :: next.sightings rest

/-- What can be seen is seen through the veil. -/
theorem sighting_veilStep (result : Provider × List Effect) :
    (veilStep result).1.sighting (veilStep result).2 = result.1.sighting result.2 := by
  obtain ⟨q, effects⟩ := result
  have hfailure : ∀ outcome : Outcome, outcome.veil.failure? = outcome.failure? := by
    intro outcome
    cases outcome <;> rfl
  have hhandles : q.veil.isHandleExpired = q.isHandleExpired := funext q.isHandleExpired_veil
  have hslots : q.veil.slots.length = q.slots.length := List.length_map ..
  simp only [veilStep, sighting, Effect.filterMap_note?_veil, Effect.filterMap_read?_veil,
    Effect.filterMap_return?_veil, List.map_map, Function.comp_def, hfailure, hhandles, hslots]
  rfl

/-- Of alike providers the same is seen on alike events. -/
theorem Alike.sightings_eq {p : Profile} {q q' : Provider} (h : Alike p q q')
    {events events' : List Event} (hevents : List.Forall₂ (Event.Alike p) events events') :
    q.sightings events = q'.sightings events' := by
  induction hevents generalizing q q' with
  | nil => rfl
  | @cons event event' rest rest' hevent _ ih =>
    have hveil := h.veilStep_eq hevent
    have hnow : (q.step event).1.sighting (q.step event).2 =
        (q'.step event').1.sighting (q'.step event').2 := by
      rw [← sighting_veilStep, hveil, sighting_veilStep]
    simp only [sightings, hnow, ih (h.step hevent)]

/-- Two providers whose profiles differ at most in the token look the same all along, when the same
happens to them, and the source answers with secrets that differ only in what may not be shown. -/
theorem sightings_eq_of_alike (p : Profile) (token : String) (handles : ℕ)
    {events events' : List Event} (h : List.Forall₂ (Event.Alike p) events events') :
    (fresh (.ofProfile p) handles).sightings events =
      (fresh (.ofProfile { p with token }) handles).sightings events' :=
  have hstart : Alike p (fresh (.ofProfile p) handles)
      (fresh (.ofProfile { p with token }) handles) := ⟨rfl, rfl, rfl⟩
  hstart.sightings_eq h

/-- Nobody can tell who was given which of two pairs, nor by which token they were read. -/
theorem sightings_eq_of_other_pair :
    let p : Profile :=
      ⟨"http://vault.test:8200", "root", "secret/aws", "ak", "sk", 6000, 5000, 5000, none, true⟩
    let secret : Secret := [("ak", .text "AKIA1111"), ("sk", .text "S1")]
    let secret' : Secret := [("sk", .text "other"), ("note", .null), ("ak", .text "AKIA2222")]
    let events : Secret → List Event := fun given =>
      [.refresh (.join ⟨0, 1, .handle 0⟩), .refresh (.join ⟨1, 1, .fetch⟩),
        .refresh (.answer ⟨0, 1, .handle 0⟩ (.secret given)), .refresh (.wake ⟨1, 1, .fetch⟩),
        .expire 0]
    List.Forall₂ (Event.Alike p) (events secret) (events secret') ∧
      (fresh (.ofProfile p) 1).sightings (events secret) =
        (fresh (.ofProfile { p with token := "other" }) 1).sightings (events secret') := by
  intro p secret secret' events
  have hshown : KeyPair.ShownAlike "AKIA1111" "AKIA2222" := by decide
  have halike : secret.Alike p secret' := ⟨.text hshown, .text trivial⟩
  have hevents : List.Forall₂ (Event.Alike p) (events secret) (events secret') :=
    .cons (.refresh (.same _)) (.cons (.refresh (.same _))
      (.cons (.refresh (.answer _ (.secret halike))) (.cons (.refresh (.same _))
        (.cons (.expire 0) .nil))))
  exact ⟨hevents, sightings_eq_of_alike p "other" 1 hevents⟩

end Provider

end Refresh

end FreshKeys
