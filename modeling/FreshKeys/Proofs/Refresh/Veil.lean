import FreshKeys.Proofs.Refresh.Coherence
import FreshKeys.Refresh.Provider

/-!
# The veil over pairs

Under the veil a pair is left with what may be shown of it: its access key id is masked and its
secret key is blank. Everything else in a cache and over it stays as it is. No step looks into a
pair, so what happens without a secret from the source happens under the veil in the same way.
-/

namespace FreshKeys

/-- A pair as it may be shown. -/
def KeyPair.veil (p : KeyPair) : KeyPair := ⟨p.maskedId, "", p.providerName⟩

/-- What is masked is shown as it is. -/
theorem KeyPair.maskedId_veil (p : KeyPair) : p.veil.maskedId = p.maskedId := by
  have hlength (id : List Char) :
      (id.take shownLength ++ List.replicate (id.length - shownLength) '*').length = id.length := by
    rw [List.length_append, List.length_take, List.length_replicate]
    omega
  have hshown (id : List Char) :
      (id.take shownLength ++ List.replicate (id.length - shownLength) '*').take shownLength =
        id.take shownLength := by
    have hstars : min (shownLength - min shownLength id.length) (id.length - shownLength) = 0 := by
      omega
    rw [List.take_append, List.take_take, List.take_replicate, List.length_take, Nat.min_self,
      hstars, List.replicate_zero, List.append_nil]
  simp only [veil, maskedId, String.toList_ofList, hlength, hshown]

/-- The tracked fields, with values as they may be shown. -/
def TrackedPair.veil (tracked : TrackedPair) : TrackedPair :=
  ⟨⟨tracked.accessKey.name, tracked.pair.maskedId⟩, ⟨tracked.secretKey.name, ""⟩⟩

/-- An outcome, its pair veiled. -/
def Outcome.veil : Outcome → Outcome
  | .pair p => .pair p.veil
  | .failure f => .failure f

namespace Refresh

/-- A receipt of another message. -/
def Receipt.map {α β : Type} (f : α → β) : Receipt α → Receipt β
  | .message sent => .message (f sent)
  | .lagged missed => .lagged missed
  | .closed => .closed

namespace Channel

variable {α β : Type}

/-- A channel over which other messages were sent. -/
def map (f : α → β) (channel : Channel α) : Channel β := ⟨channel.sent.map f, channel.isOpen⟩

/-- A place on a channel does not depend on its messages. -/
theorem subscribe_map (f : α → β) (channel : Channel α) :
    (channel.map f).subscribe = channel.subscribe := by
  simp [map, subscribe]

/-- Sending a message and changing it can be done in either order. -/
theorem map_send (f : α → β) (channel : Channel α) (hasReceiver : Bool) (message : α) :
    (channel.send hasReceiver message).map f = (channel.map f).send hasReceiver (f message) := by
  cases hasReceiver <;> simp [map, send]

/-- A receiver is given what it was given, but for the message. -/
theorem receive?_map (f : α → β) (channel : Channel α) (place : ℕ) :
    (channel.map f).receive? place = (channel.receive? place).map (Receipt.map f) := by
  by_cases hmissed : place + capacity < channel.sent.length
  · simp [receive?, map, hmissed, Receipt.map]
  · cases hsent : channel.sent[place]? with
    | some message => simp [receive?, map, hmissed, hsent, Receipt.map]
    | none =>
      cases hopen : channel.isOpen <;> simp [receive?, map, hmissed, hsent, hopen, Receipt.map]

end Channel

/-- A refresh, its outcome veiled. -/
def Cycle.veil (cycle : Cycle) : Cycle := { cycle with channel := cycle.channel.map Outcome.veil }

/-- A refresh that is finished looks under the veil like one that is finished there. -/
theorem Cycle.veil_finish (cycle : Cycle) (hasReceiver : Bool) (outcome : Outcome) :
    (cycle.finish hasReceiver outcome).veil = cycle.veil.finish hasReceiver outcome.veil := by
  simp only [veil, finish, ← Channel.map_send]
  rfl

/-- An effect, its outcome veiled. -/
def Effect.veil : Effect → Effect
  | .finished cycle outcome followers => .finished cycle outcome.veil followers
  | .returned call outcome => .returned call outcome.veil
  | effect => effect

namespace Effect

/-- The veil hides no note, and no read. -/
theorem filterMap_note?_veil (effects : List Effect) :
    (effects.map veil).filterMap note? = effects.filterMap note? := by
  rw [List.filterMap_map]
  exact List.filterMap_congr fun e _ => by cases e <;> rfl

/-- The veil hides no read. -/
theorem filterMap_read?_veil (effects : List Effect) :
    (effects.map veil).filterMap read? = effects.filterMap read? := by
  rw [List.filterMap_map]
  exact List.filterMap_congr fun e _ => by cases e <;> rfl

/-- Whoever returns, returns under the veil. -/
theorem return?_veil (e : Effect) : e.veil.return? = e.return?.map fun r => (r.1, r.2.veil) := by
  cases e <;> rfl

/-- The veil hides of a return only what its outcome holds. -/
theorem filterMap_return?_veil (effects : List Effect) :
    (effects.map veil).filterMap return? =
      (effects.filterMap return?).map fun r => (r.1, r.2.veil) := by
  rw [List.filterMap_map, List.map_filterMap]
  exact List.filterMap_congr fun e _ => e.return?_veil

end Effect

/-- What a follower makes of a receipt without a message has no pair in it. -/
theorem Receipt.outcome_map_veil (receipt : Receipt Outcome) :
    (receipt.map Outcome.veil).outcome = receipt.outcome.veil := by
  cases receipt <;> simp [Receipt.map, Receipt.outcome, Outcome.veil]

namespace Cache

/-- A cache, its pair and all outcomes veiled. -/
def veil (c : Cache) : Cache :=
  { c with tracked := c.tracked.veil, cycles := c.cycles.map Cycle.veil }

/-- What comes of an event, all pairs veiled. -/
def veilStep (result : Cache × List Effect) : Cache × List Effect :=
  (result.1.veil, result.2.map Effect.veil)

variable (c : Cache)

/-- The refreshes under the veil are the same, each under its own. -/
theorem getElem?_cycles_veil (cycle : ℕ) :
    c.veil.cycles[cycle]? = c.cycles[cycle]?.map Cycle.veil :=
  List.getElem?_map

/-- The place of a call that joins is the same under the veil. -/
theorem place_veil (cycle : ℕ) : c.veil.place cycle = c.place cycle := by
  unfold place
  rw [getElem?_cycles_veil]
  cases c.cycles[cycle]? with
  | none => rfl
  | some k => exact Channel.subscribe_map _ _

/-- A read has used up its time under the veil exactly if it has. -/
theorem isDue_veil (cycle : ℕ) : c.veil.isDue cycle = c.isDue cycle := by
  unfold isDue
  rw [getElem?_cycles_veil]
  cases c.cycles[cycle]? <;> rfl

/-- A follower is given the same under the veil, and its outcome under its own. -/
theorem receipt?_veil (seat : Seat) :
    c.veil.receipt? seat = (c.receipt? seat).map (Receipt.map Outcome.veil) := by
  unfold receipt?
  rw [getElem?_cycles_veil]
  cases c.cycles[seat.cycle]? with
  | none => rfl
  | some k => exact Channel.receive?_map _ _ _

/-- That nobody waits any more is told without a pair. -/
theorem abandonment_veil : c.abandonment.map Effect.veil = c.veil.abandonment := by
  have hsame : c.veil.abandonment = c.abandonment := rfl
  rw [hsame]
  unfold abandonment
  cases c.cohort.signal with
  | none => rfl
  | some cycle => dsimp only; split <;> rfl

/-- The end of a refresh is the same under the veil. -/
theorem finish_veil (outcome : Outcome) :
    (c.finish outcome).veil = c.veil.finish outcome.veil := by
  cases hsignal : c.cohort.signal with
  | none => simp [finish, veil, hsignal]
  | some cycle =>
    have hcycles : (c.finish outcome).cycles.map Cycle.veil =
        (c.veil.finish outcome.veil).cycles := by
      refine List.ext_getElem? fun i => ?_
      have hfollowed : c.veil.isFollowed cycle = c.isFollowed cycle := rfl
      have hveiled : c.veil.cycles = c.cycles.map Cycle.veil := rfl
      have hcohort : c.veil.cohort = c.cohort := rfl
      simp only [finish, hcohort, hsignal, hfollowed, hveiled, List.getElem?_map,
        List.getElem?_modify, Option.map_map, Option.map_eq_map]
      congr 1
      funext k
      by_cases hi : cycle = i
      · simp [hi, Cycle.veil_finish]
      · simp [hi]
    unfold veil at hcycles ⊢
    rw [hcycles]
    rfl

/-- A call joins under the veil as it does without. -/
theorem join_veil (call : Call) : veilStep (c.join call) = c.veil.join call := by
  have hlength : c.veil.cycles.length = c.cycles.length := List.length_map ..
  have hcohort : c.veil.cohort = c.cohort := rfl
  unfold join
  rw [hcohort, hlength]
  rcases cohort_join_cases c.cohort c.cycles.length with ⟨hjoin, -⟩ | ⟨cycle, hjoin, -⟩
  · simp only [hjoin, place_veil]
    simp [veilStep, veil, Effect.veil, Cycle.veil, Channel.opened, Channel.map]
  · simp only [hjoin, place_veil]
    rfl

/-- Takes over what was merged, if it could be. -/
def take : Except Failure TrackedPair → Cache × Outcome
  | .error failure => (c, .failure failure)
  | .ok tracked =>
    ({ c with tracked, window := c.window.extend c.terms.ttl c.now }, .pair tracked.pair)

/-- Ends the refresh that a call leads with what was merged. -/
def conclude (seat : Seat) (merged : Except Failure TrackedPair) : Cache × List Effect :=
  (((c.take merged).1.finish (c.take merged).2).leave seat.call,
    c.abandonment ++
      [.finished seat.cycle (c.take merged).2 c.cohort.followers,
        .noted (ending c.cohort.followers (c.take merged).2),
        .returned seat.call (c.take merged).2])

/-- Of what was fetched, a refresh ends with what can be merged. -/
theorem commit_eq_conclude (seat : Seat) (fetched : Except Failure Secret) :
    c.commit seat fetched = c.conclude seat (fetched >>= c.tracked.merge) := by
  have habsorb : c.absorb fetched = c.take (fetched >>= c.tracked.merge) := by
    cases fetched with
    | error failure => rfl
    | ok secret =>
      change _ = c.take (c.tracked.merge secret)
      cases hmerge : c.tracked.merge secret <;> simp only [absorb, hmerge, take]
  simp only [commit, conclude, habsorb]

/-- A refresh ends with the same note under the veil. -/
theorem ending_veil (followers : ℕ) (outcome : Outcome) :
    ending followers outcome.veil = ending followers outcome := by
  cases outcome with
  | pair p => exact congrArg (Note.refreshed · followers) p.maskedId_veil
  | failure failure => rfl

/-- A refresh ends under the veil as it does without, with what was merged veiled. -/
theorem conclude_veil (seat : Seat) (merged : Except Failure TrackedPair) :
    veilStep (c.conclude seat merged) = c.veil.conclude seat (merged.map TrackedPair.veil) := by
  have htake : (c.take merged).1.veil = (c.veil.take (merged.map TrackedPair.veil)).1 ∧
      (c.take merged).2.veil = (c.veil.take (merged.map TrackedPair.veil)).2 := by
    cases merged <;> exact ⟨rfl, rfl⟩
  unfold conclude
  rw [← htake.1, ← htake.2, ← finish_veil, ending_veil]
  refine Prod.ext rfl ?_
  simp only [veilStep, List.map_append, abandonment_veil]
  rfl

/-- A refresh is cancelled under the veil as it is without. -/
theorem cancel_veil (seat : Seat) : veilStep (c.cancel seat) = c.veil.cancel seat := by
  have hfinish : (c.finish (.failure cancelled)).veil = c.veil.finish (.failure cancelled) :=
    c.finish_veil _
  refine Prod.ext (congrArg (leave · seat.call) hfinish) ?_
  simp only [veilStep, cancel, List.map_append, abandonment_veil]
  rfl

/-- An event that brings no reply does under the veil what it does without. -/
theorem step_veil {event : Event} (hquiet : ∀ call reply, event ≠ .answer call reply) :
    veilStep (c.step event) = c.veil.step event := by
  have hseatAs : ∀ role call, c.veil.seatAs? role call = c.seatAs? role call := fun _ _ => rfl
  have hseat : ∀ call, c.veil.seat? call = c.seat? call := fun _ => rfl
  cases event with
  | join call =>
    simp only [step, hseat]
    cases c.seat? call with
    | none => exact c.join_veil call
    | some seat => rfl
  | answer call reply => exact absurd rfl (hquiet call reply)
  | timeOut call =>
    simp only [step, hseatAs]
    cases c.seatAs? .leader call with
    | none => rfl
    | some seat =>
      simp only [isDue_veil]
      cases c.isDue seat.cycle with
      | false => rfl
      | true => exact c.conclude_veil seat (.error (timedOut c.terms.fetchTimeout))
  | wake call =>
    simp only [step, hseatAs]
    cases c.seatAs? .follower call with
    | none => rfl
    | some seat =>
      simp only [receipt?_veil]
      cases c.receipt? seat with
      | none => rfl
      | some receipt =>
        simp only [Option.map_some, Receipt.outcome_map_veil]
        rfl
  | drop call =>
    simp only [step, hseat]
    cases c.seat? call with
    | none => rfl
    | some seat =>
      cases hrole : seat.role with
      | leader => simpa only [hrole] using c.cancel_veil seat
      | follower => simp only [hrole]; rfl
  | advance span => rfl

end Cache

namespace Provider

/-- A provider, all pairs veiled. -/
def veil (p : Provider) : Provider := ⟨p.cache.veil, p.slots.map (Option.map KeyPair.veil)⟩

/-- What comes of an event, all pairs veiled. -/
def veilStep (result : Provider × List Effect) : Provider × List Effect :=
  (result.1.veil, result.2.map Effect.veil)

/-- A handle keeps under the veil the pair that it keeps without. -/
theorem keep_veil (slots : List (Option KeyPair)) (e : Effect) :
    (keep slots e).map (Option.map KeyPair.veil) =
      keep (slots.map (Option.map KeyPair.veil)) e.veil := by
  cases e with
  | returned call outcome =>
    cases outcome with
    | failure failure => rfl
    | pair pair =>
      cases hway : call.way <;> simp [keep, Effect.veil, Outcome.veil, hway, Way.handle?]
  | _ => rfl

/-- Pairs are kept in the same slots under the veil. -/
theorem keep_all_veil (slots : List (Option KeyPair)) (effects : List Effect) :
    (effects.foldl keep slots).map (Option.map KeyPair.veil) =
      (effects.map Effect.veil).foldl keep (slots.map (Option.map KeyPair.veil)) := by
  induction effects generalizing slots with
  | nil => rfl
  | cons e rest ih => rw [List.foldl_cons, ih, keep_veil, List.map_cons, List.foldl_cons]

variable (p : Provider)

/-- What the cache does under the veil decides what the provider does. -/
theorem refresh_eq (event : Refresh.Event) :
    veilStep (p.refresh event) =
      (⟨(Cache.veilStep (p.cache.step event)).1,
        (Cache.veilStep (p.cache.step event)).2.foldl keep p.veil.slots⟩,
        (Cache.veilStep (p.cache.step event)).2) := by
  unfold veilStep refresh veil
  rw [keep_all_veil]
  rfl

/-- A handle has a pair to hand out under the veil exactly if it has one. -/
theorem stored?_veil (handle : ℕ) :
    p.veil.stored? handle = (p.stored? handle).map KeyPair.veil := by
  have hexpired : p.veil.isExpired = p.isExpired := rfl
  unfold stored?
  rw [hexpired]
  cases p.isExpired with
  | true => rfl
  | false => cases hslot : p.slots[handle]? <;> simp [veil, hslot]

/-- A handle has to ask under the veil if it has to without. -/
theorem isHandleExpired_veil (handle : ℕ) :
    p.veil.isHandleExpired handle = p.isHandleExpired handle := by
  rw [isHandleExpired, stored?_veil, Option.isNone_map, isHandleExpired]

/-- Beginning a call looks into no pair. -/
theorem ask_veil (call : Call) : veilStep (p.ask call) = p.veil.ask call := by
  have hjoin : veilStep (p.refresh (.join call)) = p.veil.refresh (.join call) := by
    rw [refresh_eq, Cache.step_veil _ (by simp)]
    rfl
  unfold ask
  cases call.way.handle? with
  | none => exact hjoin
  | some handle =>
    simp only [stored?_veil]
    cases p.stored? handle with
    | some pair => rfl
    | none =>
      simp only [Option.map_none, ← hjoin]
      rfl

/-- An event that brings no reply does under the veil what it does without. -/
theorem step_veil {event : Event}
    (hquiet : ∀ call reply, event ≠ .refresh (.answer call reply)) :
    veilStep (p.step event) = p.veil.step event := by
  cases event with
  | expire handle => simp [veilStep, step, veil]
  | refresh happened =>
    have hrefresh : veilStep (p.refresh happened) = p.veil.refresh happened := by
      rw [refresh_eq, Cache.step_veil _ fun call reply heq => hquiet call reply (heq ▸ rfl)]
      rfl
    cases happened with
    | join call =>
      have hseat : p.veil.cache.seat? call = p.cache.seat? call := rfl
      simp only [step, hseat]
      cases p.cache.seat? call with
      | none => exact p.ask_veil call
      | some seat => rfl
    | _ => exact hrefresh

end Provider

end Refresh

end FreshKeys
