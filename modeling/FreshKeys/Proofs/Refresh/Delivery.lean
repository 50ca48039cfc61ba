import FreshKeys.Proofs.Merge
import FreshKeys.Proofs.Refresh.SingleFlight

/-!
# Every caller is given the outcome of its own refresh

A follower may wake long after its refresh, when others have come and gone. Its outcome is still
the one it is given: a channel belongs to one refresh, one message is sent over it before its
sender goes, and whoever waits subscribed before that. The effects of a run show it: between a
call's last joining and its return lies the end of the refresh that it joined, with the outcome
that it returns.
-/

namespace FreshKeys.Refresh

/-- When a call joined last: as what, in which refresh, and what has happened since. -/
def JoinedLast (effects : List Effect) (call : Call) (role : Role) (cycle : ℕ)
    (since : List Effect) : Prop :=
  ∃ before, effects = before ++ .joined call role cycle :: since ∧
    ∀ role' cycle', .joined call role' cycle' ∉ since

/-- Unless the call joins again, what happens next has happened since it joined. -/
theorem JoinedLast.append {effects : List Effect} {call : Call} {role : Role} {cycle : ℕ}
    {since : List Effect} (h : JoinedLast effects call role cycle since) {new : List Effect}
    (hnew : ∀ role' cycle', .joined call role' cycle' ∉ new) :
    JoinedLast (effects ++ new) call role cycle (since ++ new) := by
  obtain ⟨before, rfl, hsince⟩ := h
  refine ⟨before, by simp, fun role' cycle' hmem => ?_⟩
  rcases List.mem_append.mp hmem with hold | hmem
  · exact hsince role' cycle' hold
  · exact hnew role' cycle' hmem

/-- A call that joins now has joined last. -/
theorem JoinedLast.now (effects : List Effect) (call : Call) (role : Role) (cycle : ℕ)
    {rest : List Effect} (hrest : ∀ role' cycle', .joined call role' cycle' ∉ rest) :
    JoinedLast (effects ++ .joined call role cycle :: rest) call role cycle rest :=
  ⟨effects, rfl, hrest⟩

/-- A call that joined last has joined. -/
theorem JoinedLast.mem {effects : List Effect} {call : Call} {role : Role} {cycle : ℕ}
    {since : List Effect} (h : JoinedLast effects call role cycle since) :
    .joined call role cycle ∈ effects := by
  obtain ⟨before, rfl, -⟩ := h
  simp

/-- What has happened since a call joined last has happened. -/
theorem JoinedLast.mem_of_since {effects : List Effect} {call : Call} {role : Role} {cycle : ℕ}
    {since : List Effect} (h : JoinedLast effects call role cycle since) {e : Effect}
    (he : e ∈ since) : e ∈ effects := by
  obtain ⟨before, rfl, -⟩ := h
  simp [he]

namespace Cache

/-- A call that waits does not join. -/
theorem Move.joined_free {c c' : Cache} {event : Event} {new : List Effect}
    (hmove : Move c event c' new) {s : Seat} (hs : s ∈ c.seats) (role : Role) (cycle : ℕ) :
    .joined s.call role cycle ∉ new := by
  intro hmem
  cases hmove with
  | still => cases hmem
  | lead call hfree =>
    have hcall := seat?_eq_none_iff.mp hfree s hs
    simp [hcall] at hmem
  | follow call k hfree =>
    have hcall := seat?_eq_none_iff.mp hfree s hs
    simp [hcall] at hmem
  | finish _ _ hending => cases hending.eq_finished hmem rfl
  | receive => simp at hmem
  | leave => cases hmem
  | advance => cases hmem

/-- What the effects so far say about the calls that wait, and about the channels. -/
structure Delivering (c : Cache) (effects : List Effect) : Prop where
  seated : ∀ s ∈ c.seats, ∃ since, JoinedLast effects s.call s.role s.cycle since ∧
    ∀ outcome followers, .finished s.cycle outcome followers ∈ effects →
      .finished s.cycle outcome followers ∈ since
  sent : ∀ cycle outcome, c.channel? cycle = some ⟨[outcome], false⟩ →
    ∃ followers, .finished cycle outcome followers ∈ effects

namespace Delivering

variable {c c' : Cache} {effects new : List Effect} {event : Event}

/-- Nobody waits for an empty cache. -/
theorem fresh (terms : Terms) (accessKeyName secretKeyName : String) :
    Delivering (.fresh terms accessKeyName secretKeyName) [] where
  seated _ hs := absurd hs List.not_mem_nil
  sent _ _ h := by cases h

/-- Who goes on waiting has what has happened since it joined extended by what happens now. -/
theorem seated_append (h : Delivering c effects) (hmove : Move c event c' new) {s : Seat}
    (hs : s ∈ c.seats) :
    ∃ since, JoinedLast (effects ++ new) s.call s.role s.cycle since ∧
      ∀ outcome followers, .finished s.cycle outcome followers ∈ effects ++ new →
        .finished s.cycle outcome followers ∈ since := by
  obtain ⟨since, hjoined, hfinished⟩ := h.seated s hs
  refine ⟨since ++ new, hjoined.append (hmove.joined_free hs), fun outcome followers hmem => ?_⟩
  rcases List.mem_append.mp hmem with hold | hnew
  · exact List.mem_append_left _ (hfinished outcome followers hold)
  · exact List.mem_append_right _ hnew

/-- Who joins now joins a refresh that is not over. -/
theorem seated_now (hcounted : Counted c effects) {call : Call} {role : Role} {cycle : ℕ}
    {rest : List Effect} (hcycle : c.cohort.signal.getD c.cycles.length ≤ cycle)
    (hrest : ∀ role' cycle', .joined call role' cycle' ∉ rest)
    (hunfinished : ∀ outcome followers, .finished cycle outcome followers ∉ rest) :
    ∃ since, JoinedLast (effects ++ .joined call role cycle :: rest) call role cycle since ∧
      ∀ outcome followers,
        .finished cycle outcome followers ∈ effects ++ .joined call role cycle :: rest →
          .finished cycle outcome followers ∈ since := by
  refine ⟨rest, JoinedLast.now effects call role cycle hrest, fun outcome followers hmem => ?_⟩
  rcases List.mem_append.mp hmem with hold | hnew
  · exact absurd (hcounted.finished_lt hold) (Nat.not_lt.mpr hcycle)
  · simp [hunfinished outcome followers] at hnew

/-- A message over a new channel was sent at its refresh's end. -/
theorem sent_finish (h : Delivering c effects) (hcoherent : Coherent c) {seat : Seat}
    (hseat : seat ∈ c.seats) (hleads : seat.role = .leader) {outcome : Outcome}
    (hmem : .finished seat.cycle outcome c.cohort.followers ∈ new) {cycle : ℕ} {message : Outcome}
    (hchannel : (c.finish outcome).channel? cycle = some ⟨[message], false⟩) :
    ∃ followers, .finished cycle message followers ∈ effects ++ new := by
  obtain ⟨hsignal, -⟩ := hcoherent.of_leader hseat hleads
  rw [channel?_finish] at hchannel
  split at hchannel
  · rename_i hcycle
    have hsame : seat.cycle = cycle := Option.some.inj (hsignal.symm.trans hcycle)
    rw [(hcoherent.busy cycle hcycle).silent] at hchannel
    have hmessage : outcome = message := by
      simp only [Option.map_some, Channel.send, Channel.close, Channel.opened] at hchannel
      split at hchannel <;> simp_all
    exact ⟨_, List.mem_append_right _ (hmessage ▸ hsame ▸ hmem)⟩
  · obtain ⟨followers, hold⟩ := h.sent cycle message hchannel
    exact ⟨followers, List.mem_append_left _ hold⟩

/-- Every move of a coherent cache keeps what the effects say of those who wait. -/
theorem move (h : Delivering c effects) (hcoherent : Coherent c) (hcounted : Counted c effects)
    (hmove : Move c event c' new) : Delivering c' (effects ++ new) := by
  have hseated := fun s (hs : s ∈ c.seats) => h.seated_append hmove hs
  have hsent : ∀ cycle outcome, c.channel? cycle = some ⟨[outcome], false⟩ →
      ∃ followers, .finished cycle outcome followers ∈ effects ++ new :=
    fun cycle outcome hchannel =>
      (h.sent cycle outcome hchannel).imp fun _ hold => List.mem_append_left _ hold
  cases hmove with
  | still => exact ⟨hseated, hsent⟩
  | lead call hfree hidle =>
    have hsignal := hcoherent.signal_eq_none hidle
    refine ⟨fun s hs => ?_, fun cycle outcome hchannel => hsent cycle outcome ?_⟩
    · rcases List.mem_append.mp hs with hs | hs
      · exact hseated s hs
      · rw [List.mem_singleton.mp hs]
        exact seated_now hcounted (by simp [hsignal]) (by simp) (by simp)
    · -- nothing has been sent over the channel that is new
      rcases Nat.lt_or_ge cycle c.cycles.length with hlt | hge
      · simpa [channel?, List.getElem?_append_left hlt] using hchannel
      · rw [channel?, List.getElem?_append_right hge] at hchannel
        cases hk : cycle - c.cycles.length <;> simp [hk, Channel.opened] at hchannel
  | follow call cycle hfree hsignal =>
    refine ⟨fun s hs => ?_, hsent⟩
    rcases List.mem_append.mp hs with hs | hs
    · exact hseated s hs
    · rw [List.mem_singleton.mp hs]
      exact seated_now hcounted (by simp [hsignal]) (by simp) (by simp)
  | @finish _ seat outcome tracked window rest hseat hleads =>
    refine ⟨fun s hs => hseated s (List.mem_of_mem_filter hs), fun cycle message hchannel => ?_⟩
    have hbare : Delivering { c with tracked, window } effects := ⟨h.seated, h.sent⟩
    exact hbare.sent_finish (hcoherent.update c.now tracked window) hseat hleads (by simp) hchannel
  | receive => exact ⟨fun s hs => hseated s (List.mem_of_mem_filter hs), hsent⟩
  | leave => exact ⟨fun s hs => hseated s (List.mem_of_mem_filter hs), hsent⟩
  | advance => exact ⟨hseated, hsent⟩

end Delivering

/-- A run tells who waits for what, whatever happens in it. -/
theorem delivering_run (terms : Terms) (accessKeyName secretKeyName : String)
    (events : List Event) :
    Delivering ((fresh terms accessKeyName secretKeyName).run events).1
      ((fresh terms accessKeyName secretKeyName).run events).2 :=
  (coherent_run_induction (P := fun c effects => Counted c effects ∧ Delivering c effects)
    (fun _ hcoherent hmove h => ⟨h.1.move hcoherent hmove, h.2.move hcoherent h.1 hmove⟩)
    (Coherent.fresh _ _ _) ⟨Counted.fresh _ _ _, Delivering.fresh _ _ _⟩ events).2

/-- The leader returns what the refresh came to, or has been given up. -/
theorem Ending.returned_or_drop {c : Cache} {seat : Seat} {event : Event} {outcome : Outcome}
    {tracked : TrackedPair} {window : Window} {rest : List Effect}
    (h : Ending c seat event outcome tracked window rest) :
    (∃ note, rest = [.noted note, .returned seat.call outcome]) ∨
      (event = .drop seat.call ∧ outcome = .failure Refresh.cancelled ∧
        ∃ note, rest = [.noted note]) := by
  cases h with
  | taken => exact Or.inl ⟨_, rfl⟩
  | refused => exact Or.inl ⟨_, rfl⟩
  | failed => exact Or.inl ⟨_, rfl⟩
  | cancelled => exact Or.inr ⟨rfl, rfl, _, rfl⟩

/-- No words of a cache's own for a failed read are those of an abandoned follower. -/
theorem Fetched.eq_of_abandoned {c : Cache} {seat : Seat} {event : Event}
    (h : Fetched c seat event (.error abandoned)) :
    ∃ causes, event = .answer seat.call (.failed causes) ∧
      .sourceUnavailable causes.message = abandoned := by
  have hfirst : ∀ text : String, .sourceUnavailable text = abandoned →
      text.toList.head? = some 'c' := by
    intro text htext
    rw [Failure.sourceUnavailable.inj htext]
    rfl
  rcases h.answer_or_timeOut with ⟨reply, rfl, hreply⟩ | ⟨-, htime⟩
  · cases reply with
    | secret secret => cases hreply
    | nothing =>
      have := hfirst _ (Except.error.inj hreply).symm
      simp at this
    | failed causes => exact ⟨causes, rfl, (Except.error.inj hreply).symm⟩
  · have := hfirst _ (Except.error.inj htime).symm
    simp at this

/-- A refresh comes to the failure of an abandoned follower only in the words of its source. -/
theorem Ending.eq_of_abandoned {c : Cache} {seat : Seat} {event : Event} {tracked : TrackedPair}
    {window : Window} {rest : List Effect}
    (h : Ending c seat event (.failure abandoned) tracked window rest) :
    ∃ call causes, event = .answer call (.failed causes) ∧
      .sourceUnavailable causes.message = abandoned := by
  generalize houtcome : Outcome.failure abandoned = outcome at h
  cases h with
  | taken => cases houtcome
  | refused _ hmerge =>
    obtain ⟨key, issue, rfl⟩ := TrackedPair.eq_shapeMismatch_of_merge hmerge
    cases houtcome
  | failed hfetched =>
    obtain rfl := Outcome.failure.inj houtcome
    obtain ⟨causes, hevent, hcauses⟩ := hfetched.eq_of_abandoned
    exact ⟨_, causes, hevent, hcauses⟩
  | cancelled => exact absurd houtcome (by decide)

/-- What an event, after some effects, makes of the calls that wait and of their refreshes. -/
structure Isolated (c : Cache) (effects : List Effect) (event : Event) (c' : Cache)
    (new : List Effect) : Prop where
  /-- Whoever returns, returns what the refresh came to that it joined, after it had joined. -/
  returned : ∀ call outcome, .returned call outcome ∈ new →
    ∃ earlier role cycle since followers, new = earlier ++ [.returned call outcome] ∧
      JoinedLast (effects ++ earlier) call role cycle since ∧
        .finished cycle outcome followers ∈ since
  /-- A refresh ends once. -/
  once : ((effects ++ new).filterMap Effect.ended?).Nodup
  /-- It ends with what its leader returns, or because its leader has been given up. -/
  led : ∀ cycle outcome followers, .finished cycle outcome followers ∈ new →
    ∃ leader since, JoinedLast effects leader .leader cycle since ∧
      (.returned leader outcome ∈ new ∨
        (event = .drop leader ∧ outcome = .failure Refresh.cancelled))
  /-- A call that joins waits, until it returns or is given up. -/
  waits : ∀ call role cycle, .joined call role cycle ∈ new →
    ∃ place, ⟨call, cycle, role, place⟩ ∈ c'.seats
  stays : ∀ s ∈ c.seats, s ∉ c'.seats →
    (∃ outcome, .returned s.call outcome ∈ new) ∨ event = .drop s.call
  /-- A follower that waits can return as soon as its refresh is over, and not before. -/
  ready : ∀ s ∈ c.seats, s.role = .follower → ∀ outcome followers,
    .finished s.cycle outcome followers ∈ effects →
      c.step (.wake s.call) = (c.leave s.call, [.returned s.call outcome])
  unready : ∀ s ∈ c.seats, s.role = .follower → s.cycle ∉ effects.filterMap Effect.ended? →
    c.step (.wake s.call) = (c, [])
  /-- A follower is given the message of its channel: it never lags behind, nor is it told that the
  channel is closed. -/
  told : ∀ s ∈ c.seats, s.role = .follower →
    c.receipt? s = none ∨ ∃ outcome, c.receipt? s = some (.message outcome)
  /-- So the failure of an abandoned follower is seen only where the source itself words it so. -/
  abandoned : ∀ cycle followers, .finished cycle (.failure Refresh.abandoned) followers ∈ new →
    ∃ call causes, event = .answer call (.failed causes) ∧
      .sourceUnavailable causes.message = Refresh.abandoned

namespace Delivering

variable {c c' : Cache} {effects new : List Effect} {event : Event}

/-- A leader returns what it has just announced; a follower, what it was sent. -/
theorem returned (h : Delivering c effects) (hcoherent : Coherent c)
    (hmove : Move c event c' new) {call : Call} {outcome : Outcome}
    (hmem : .returned call outcome ∈ new) :
    ∃ earlier role cycle since followers, new = earlier ++ [.returned call outcome] ∧
      JoinedLast (effects ++ earlier) call role cycle since ∧
        .finished cycle outcome followers ∈ since := by
  have hfree := fun s (hs : s ∈ c.seats) => hmove.joined_free hs
  cases hmove with
  | still => cases hmem
  | lead => simp at hmem
  | follow => simp at hmem
  | @finish _ seat _ _ _ rest hseat hleads hending =>
    have hrest : .returned call outcome ∈ rest := by
      rcases List.mem_append.mp hmem with hnote | hmem
      · cases mem_abandonment hnote
      · simpa using hmem
    rcases hending.returned_or_drop with ⟨note, rfl⟩ | ⟨-, -, note, rfl⟩
    · obtain ⟨rfl, rfl⟩ : call = seat.call ∧ outcome = _ := by simpa using hrest
      obtain ⟨since, hjoined, -⟩ := h.seated seat hseat
      refine ⟨c.abandonment ++ [.finished seat.cycle outcome c.cohort.followers, .noted note],
        seat.role, seat.cycle, _, c.cohort.followers, by simp, hjoined.append ?_, by simp⟩
      intro role' cycle' hjoins
      exact hfree seat hseat role' cycle' (by simp at hjoins ⊢; exact hjoins)
    · simp at hrest
  | @receive seat receipt hseat hfollows hreceipt =>
    obtain ⟨rfl, rfl⟩ : call = seat.call ∧ outcome = receipt.outcome := by simpa using hmem
    obtain ⟨since, hjoined, hfinished⟩ := h.seated seat hseat
    rcases hcoherent.receipt?_cases hseat hfollows with ⟨-, hnone⟩ | ⟨sent, hchannel, hsent⟩
    · simp [hreceipt] at hnone
    · obtain rfl : receipt = .message sent := by simpa [hreceipt] using hsent
      obtain ⟨followers, hover⟩ := h.sent _ _ hchannel
      exact ⟨[], seat.role, seat.cycle, since, followers, rfl, by simpa using hjoined,
        hfinished _ _ hover⟩
  | leave => cases hmem
  | advance => cases hmem

/-- A refresh ends in the hands of its leader. -/
theorem led (h : Delivering c effects) (hmove : Move c event c' new) {cycle : ℕ}
    {outcome : Outcome} {followers : ℕ} (hmem : .finished cycle outcome followers ∈ new) :
    ∃ leader since, JoinedLast effects leader .leader cycle since ∧
      (.returned leader outcome ∈ new ∨
        (event = .drop leader ∧ outcome = .failure Refresh.cancelled)) := by
  obtain ⟨seat, hleader, rfl, tracked, window, rest, hending, -, rfl⟩ :=
    hmove.ending_of_finished hmem
  obtain ⟨hseat, hleads⟩ := mem_leaders.mp hleader
  obtain ⟨since, hjoined, -⟩ := h.seated seat hseat
  rw [hleads] at hjoined
  refine ⟨seat.call, since, hjoined, ?_⟩
  rcases hending.returned_or_drop with ⟨note, rfl⟩ | ⟨hdrop, hcancelled, -⟩
  · exact Or.inl (by simp)
  · exact Or.inr ⟨hdrop, hcancelled⟩

/-- A follower whose refresh is over returns what the refresh came to. -/
theorem wake_of_finished (h : Delivering c effects) (hcoherent : Coherent c)
    (hcounted : Counted c effects) {s : Seat} (hs : s ∈ c.seats) (hfollows : s.role = .follower)
    {outcome : Outcome} {followers : ℕ} (hmem : .finished s.cycle outcome followers ∈ effects) :
    c.step (.wake s.call) = (c.leave s.call, [.returned s.call outcome]) := by
  have hfound := hfollows ▸ hcoherent.seatAs?_eq hs
  rcases hcoherent.receipt?_cases hs hfollows with ⟨hsignal, -⟩ | ⟨sent, hchannel, hreceipt⟩
  · have hlt := hcounted.finished_lt hmem
    simp [hsignal] at hlt
  · obtain ⟨followers', hsent⟩ := h.sent _ _ hchannel
    rw [hcounted.finished_unique hmem hsent]
    simp [step, hfound, hreceipt, Receipt.outcome]

/-- A follower whose refresh is not over goes on waiting. -/
theorem wake_of_unfinished (h : Delivering c effects) (hcoherent : Coherent c) {s : Seat}
    (hs : s ∈ c.seats) (hfollows : s.role = .follower)
    (hunfinished : s.cycle ∉ effects.filterMap Effect.ended?) :
    c.step (.wake s.call) = (c, []) := by
  have hfound := hfollows ▸ hcoherent.seatAs?_eq hs
  rcases hcoherent.receipt?_cases hs hfollows with ⟨-, hnone⟩ | ⟨sent, hchannel, -⟩
  · simp [step, hfound, hnone]
  · obtain ⟨followers, hsent⟩ := h.sent _ _ hchannel
    exact absurd (Effect.mem_ended hsent) hunfinished

end Delivering

/-- A call that joins takes a seat. -/
theorem Move.seat_of_joined {c c' : Cache} {event : Event} {new : List Effect}
    (hmove : Move c event c' new) {call : Call} {role : Role} {cycle : ℕ}
    (hmem : .joined call role cycle ∈ new) : ∃ place, ⟨call, cycle, role, place⟩ ∈ c'.seats := by
  cases hmove with
  | still => cases hmem
  | lead leader =>
    obtain ⟨rfl, rfl, rfl⟩ : call = leader ∧ role = .leader ∧ cycle = _ := by simpa using hmem
    exact ⟨0, List.mem_append_right _ (List.mem_singleton.mpr rfl)⟩
  | follow follower k =>
    obtain ⟨rfl, rfl, rfl⟩ : call = follower ∧ role = .follower ∧ cycle = k := by simpa using hmem
    exact ⟨c.place cycle, List.mem_append_right _ (List.mem_singleton.mpr rfl)⟩
  | finish _ _ hending => cases hending.eq_finished hmem rfl
  | receive => simp at hmem
  | leave => cases hmem
  | advance => cases hmem

/-- A call leaves its seat only when it returns or is given up. -/
theorem Move.returned_or_drop {c c' : Cache} {event : Event} {new : List Effect}
    (hmove : Move c event c' new) {s : Seat} (hs : s ∈ c.seats) (hgone : s ∉ c'.seats) :
    (∃ outcome, .returned s.call outcome ∈ new) ∨ event = .drop s.call := by
  have hcall : ∀ call, s ∉ (c.leave call).seats → s.call = call := by
    intro call hleft
    by_contra hne
    exact hleft (List.mem_filter.mpr ⟨hs, by simpa using hne⟩)
  cases hmove with
  | still => exact absurd hs hgone
  | lead => exact absurd (List.mem_append_left _ hs) hgone
  | follow => exact absurd (List.mem_append_left _ hs) hgone
  | @finish _ seat outcome _ _ rest hseat _ hending =>
    rw [hcall seat.call hgone]
    rcases hending.returned_or_drop with ⟨note, rfl⟩ | ⟨hdrop, -⟩
    · exact Or.inl ⟨outcome, by simp⟩
    · exact Or.inr hdrop
  | @receive seat receipt =>
    rw [hcall seat.call hgone]
    exact Or.inl ⟨receipt.outcome, by simp⟩
  | @leave seat =>
    rw [hcall seat.call hgone]
    exact Or.inr rfl
  | advance => exact absurd hs hgone

/-- A refresh fails in the words of an abandoned follower only if its source does. -/
theorem Move.eq_of_abandoned {c c' : Cache} {event : Event} {new : List Effect}
    (hmove : Move c event c' new) {cycle followers : ℕ}
    (hmem : .finished cycle (.failure abandoned) followers ∈ new) :
    ∃ call causes, event = .answer call (.failed causes) ∧
      .sourceUnavailable causes.message = abandoned := by
  obtain ⟨seat, -, -, tracked, window, rest, hending, -⟩ := hmove.ending_of_finished hmem
  exact hending.eq_of_abandoned

/-- In every run, whatever happens next, every caller is given the outcome of the refresh that it
joined. -/
theorem isolated_run (terms : Terms) (accessKeyName secretKeyName : String) (events : List Event)
    (event : Event) :
    let before := (fresh terms accessKeyName secretKeyName).run events
    let after := before.1.step event
    Isolated before.1 before.2 event after.1 after.2 := by
  intro before after
  have hcoherent : Coherent before.1 := (Coherent.fresh _ _ _).run events
  have hcounted := counted_run terms accessKeyName secretKeyName events
  have hdelivering := delivering_run terms accessKeyName secretKeyName events
  have hmove := step_move before.1 event
  exact
    { returned := fun _ _ hmem => hdelivering.returned hcoherent hmove hmem
      once := (hcounted.move hcoherent hmove).ended ▸ List.nodup_range
      led := fun _ _ _ hmem => hdelivering.led hmove hmem
      waits := fun _ _ _ hmem => hmove.seat_of_joined hmem
      stays := fun _ hs hgone => hmove.returned_or_drop hs hgone
      ready := fun _ hs hfollows _ _ hmem =>
        hdelivering.wake_of_finished hcoherent hcounted hs hfollows hmem
      unready := fun _ hs hfollows hunfinished =>
        hdelivering.wake_of_unfinished hcoherent hs hfollows hunfinished
      told := fun _ hs hfollows =>
        (hcoherent.receipt?_cases hs hfollows).imp And.right fun ⟨outcome, h⟩ => ⟨outcome, h.2⟩
      abandoned := fun _ _ hmem => hmove.eq_of_abandoned hmem }

end Cache

end FreshKeys.Refresh
