import FreshKeys.Refresh.Cache
import Mathlib.Data.List.Basic

/-!
# The moves of a cache

Whatever the event, a cache makes one of seven moves. A leader's answer, the end of its time and
its being given up are one move: all three finish the refresh, and differ in what the refresh comes
to and in whether the leader returns. Properties of runs are proved from these rules, by one
induction over the events.
-/

namespace FreshKeys.Refresh.Cache

/-- What the read that a call leads comes to with an event. -/
inductive Fetched (c : Cache) (seat : Seat) : Event → Except Failure Secret → Prop where
  | answer (reply : Reply) :
    Fetched c seat (.answer seat.call reply) (reply.secret? c.terms.path)
  | timeOut (hdue : c.isDue seat.cycle = true) :
    Fetched c seat (.timeOut seat.call) (.error (timedOut c.terms.fetchTimeout))

/-- How an event finishes the refresh that a call leads: what the refresh comes to, the pair and
the window after it, and what follows once the followers have been told. -/
inductive Ending (c : Cache) (seat : Seat) :
    Event → Outcome → TrackedPair → Window → List Effect → Prop where
  | taken {event : Event} {secret : Secret} {tracked : TrackedPair}
    (hfetched : Fetched c seat event (.ok secret)) (hmerge : c.tracked.merge secret = .ok tracked) :
    Ending c seat event (.pair tracked.pair) tracked (c.window.extend c.terms.ttl c.now)
      [.noted (ending c.cohort.followers (.pair tracked.pair)),
        .returned seat.call (.pair tracked.pair)]
  | refused {event : Event} {secret : Secret} {failure : Failure}
    (hfetched : Fetched c seat event (.ok secret))
    (hmerge : c.tracked.merge secret = .error failure) :
    Ending c seat event (.failure failure) c.tracked c.window
      [.noted (ending c.cohort.followers (.failure failure)),
        .returned seat.call (.failure failure)]
  | failed {event : Event} {failure : Failure} (hfetched : Fetched c seat event (.error failure)) :
    Ending c seat event (.failure failure) c.tracked c.window
      [.noted (ending c.cohort.followers (.failure failure)),
        .returned seat.call (.failure failure)]
  | cancelled :
    Ending c seat (.drop seat.call) (.failure cancelled) c.tracked c.window
      [.noted (.refreshCancelled c.cohort.followers)]

/-- What a cache does on an event: the state after it and the effects. -/
inductive Move (c : Cache) : Event → Cache → List Effect → Prop where
  /-- Nothing comes of the event. -/
  | still (event : Event) : Move c event c []
  | lead (call : Call) (hfree : c.seat? call = none)
    (hidle : c.cohort.signal = none ∨ c.cohort.waiters = 0) :
    Move c (.join call)
      { c with
        cohort := ⟨1, some c.cycles.length⟩
        cycles := c.cycles ++ [⟨c.now, .opened⟩]
        seats := c.seats ++ [⟨call, c.cycles.length, .leader, 0⟩] }
      [.joined call .leader c.cycles.length, .noted (.refreshing c.terms.path),
        .readStarted c.terms.path]
  | follow (call : Call) (cycle : ℕ) (hfree : c.seat? call = none)
    (hsignal : c.cohort.signal = some cycle) (hwaiters : 0 < c.cohort.waiters) :
    Move c (.join call)
      { c with
        cohort := ⟨c.cohort.waiters + 1, some cycle⟩
        seats := c.seats ++ [⟨call, cycle, .follower, c.place cycle⟩] }
      [.joined call .follower cycle]
  | finish {event : Event} {seat : Seat} {outcome : Outcome} {tracked : TrackedPair}
    {window : Window} {rest : List Effect} (hseat : seat ∈ c.seats) (hleads : seat.role = .leader)
    (hending : Ending c seat event outcome tracked window rest) :
    Move c event (leave (finish { c with tracked, window } outcome) seat.call)
      (c.abandonment ++ .finished seat.cycle outcome c.cohort.followers :: rest)
  | receive {seat : Seat} {receipt : Receipt Outcome} (hseat : seat ∈ c.seats)
    (hfollows : seat.role = .follower) (hreceipt : c.receipt? seat = some receipt) :
    Move c (.wake seat.call) (c.leave seat.call) [.returned seat.call receipt.outcome]
  | leave {seat : Seat} (hseat : seat ∈ c.seats) (hfollows : seat.role = .follower) :
    Move c (.drop seat.call) (c.leave seat.call) []
  | advance (span : ℕ) : Move c (.advance span) { c with now := c.now + span } []

/-- A read comes to its answer, or to the end of its time. -/
theorem Fetched.answer_or_timeOut {c : Cache} {seat : Seat} {event : Event}
    {fetched : Except Failure Secret} (h : Fetched c seat event fetched) :
    (∃ reply, event = .answer seat.call reply ∧ fetched = reply.secret? c.terms.path) ∨
      (event = .timeOut seat.call ∧ fetched = .error (timedOut c.terms.fetchTimeout)) := by
  cases h with
  | answer reply => exact Or.inl ⟨reply, rfl, rfl⟩
  | timeOut hdue => exact Or.inr ⟨rfl, rfl⟩

/-- A read gives a secret only by its answer. -/
theorem Fetched.eq_answer {c : Cache} {seat : Seat} {event : Event} {secret : Secret}
    (h : Fetched c seat event (.ok secret)) : event = .answer seat.call (.secret secret) := by
  rcases h.answer_or_timeOut with ⟨reply, rfl, hreply⟩ | ⟨-, htime⟩
  · cases reply with
    | secret given => rw [Except.ok.inj hreply]
    | nothing => cases hreply
    | failed causes => cases hreply
  · cases htime

/-- A seat that is found is a seat of the call. -/
theorem mem_of_seat? {c : Cache} {call : Call} {seat : Seat} (h : c.seat? call = some seat) :
    seat ∈ c.seats ∧ seat.call = call :=
  ⟨List.mem_of_find?_eq_some h, by simpa using List.find?_some h⟩

/-- A call without a seat sits nowhere. -/
theorem seat?_eq_none_iff {c : Cache} {call : Call} :
    c.seat? call = none ↔ ∀ seat ∈ c.seats, seat.call ≠ call := by
  simp [seat?]

/-- A seat that is found for a role is a seat of the call, and has the role. -/
theorem mem_of_seatAs? {c : Cache} {role : Role} {call : Call} {seat : Seat}
    (h : c.seatAs? role call = some seat) :
    seat ∈ c.seats ∧ seat.call = call ∧ seat.role = role := by
  have hfound := List.find?_some h
  simp only [Bool.and_eq_true, beq_iff_eq] at hfound
  exact ⟨List.mem_of_find?_eq_some h, hfound⟩

/-- A call joins as the leader of the next refresh, or follows the one in flight. -/
theorem cohort_join_cases (cohort : Cohort) (next : ℕ) :
    (cohort.join next = (⟨1, some next⟩, .leader, next) ∧
        (cohort.signal = none ∨ cohort.waiters = 0)) ∨
      ∃ cycle, cohort.join next = (⟨cohort.waiters + 1, some cycle⟩, .follower, cycle) ∧
        cohort.signal = some cycle ∧ 0 < cohort.waiters := by
  obtain ⟨waiters, signal⟩ := cohort
  cases signal with
  | none => exact Or.inl ⟨rfl, Or.inl rfl⟩
  | some cycle =>
    by_cases hwaiters : 0 < waiters
    · exact Or.inr ⟨cycle, by simp [Cohort.join, hwaiters], rfl, hwaiters⟩
    · exact Or.inl ⟨by simp [Cohort.join, hwaiters], Or.inr (by simpa using hwaiters)⟩

/-- Beyond the refreshes that have begun there is no channel to have a place on. -/
theorem place_length (c : Cache) : c.place c.cycles.length = 0 := by
  simp [place]

/-- A call without a seat makes one of the two joining moves. -/
theorem join_move (c : Cache) (call : Call) (hfree : c.seat? call = none) :
    Move c (.join call) (c.join call).1 (c.join call).2 := by
  rcases cohort_join_cases c.cohort c.cycles.length with
    ⟨hjoin, hidle⟩ | ⟨cycle, hjoin, hsignal, hwaiters⟩
  · have hmove := Move.lead call hfree hidle
    simpa only [join, hjoin, place_length] using hmove
  · have hmove := Move.follow call cycle hfree hsignal hwaiters
    simpa only [join, hjoin] using hmove

/-- Whatever was fetched, a leader that takes it in finishes its refresh. -/
theorem commit_move (c : Cache) {event : Event} {seat : Seat} {fetched : Except Failure Secret}
    (hseat : seat ∈ c.seats) (hleads : seat.role = .leader)
    (hfetched : Fetched c seat event fetched) :
    Move c event (c.commit seat fetched).1 (c.commit seat fetched).2 := by
  cases fetched with
  | error failure => exact Move.finish hseat hleads (Ending.failed hfetched)
  | ok secret =>
    cases hmerge : c.tracked.merge secret with
    | error failure =>
      have hmove := Move.finish hseat hleads (Ending.refused hfetched hmerge)
      simpa only [commit, absorb, hmerge] using hmove
    | ok tracked =>
      have hmove := Move.finish hseat hleads (Ending.taken hfetched hmerge)
      simpa only [commit, absorb, hmerge] using hmove

/-- A step is a move. -/
theorem step_move (c : Cache) (event : Event) : Move c event (c.step event).1 (c.step event).2 := by
  cases event with
  | join call =>
    cases hfree : c.seat? call with
    | none => simpa only [step, hfree] using join_move c call hfree
    | some seat => simpa only [step, hfree] using Move.still _
  | answer call reply =>
    cases hfound : c.seatAs? .leader call with
    | none => simpa only [step, hfound] using Move.still _
    | some seat =>
      obtain ⟨hseat, rfl, hleads⟩ := mem_of_seatAs? hfound
      simpa only [step, hfound] using commit_move c hseat hleads (Fetched.answer reply)
  | timeOut call =>
    cases hfound : c.seatAs? .leader call with
    | none => simpa only [step, hfound] using Move.still _
    | some seat =>
      obtain ⟨hseat, rfl, hleads⟩ := mem_of_seatAs? hfound
      by_cases hdue : c.isDue seat.cycle = true
      · simpa only [step, hfound, hdue, if_true] using
          commit_move c hseat hleads (Fetched.timeOut hdue)
      · simpa only [step, hfound, if_neg hdue] using Move.still _
  | wake call =>
    cases hfound : c.seatAs? .follower call with
    | none => simpa only [step, hfound] using Move.still _
    | some seat =>
      obtain ⟨hseat, rfl, hfollows⟩ := mem_of_seatAs? hfound
      cases hreceipt : c.receipt? seat with
      | none => simpa only [step, hfound, hreceipt] using Move.still _
      | some receipt =>
        simpa only [step, hfound, hreceipt] using Move.receive hseat hfollows hreceipt
  | drop call =>
    cases hfound : c.seat? call with
    | none => simpa only [step, hfound] using Move.still _
    | some seat =>
      obtain ⟨hseat, rfl⟩ := mem_of_seat? hfound
      cases hrole : seat.role with
      | leader =>
        simp only [step, hfound, hrole]
        exact Move.finish hseat hrole Ending.cancelled
      | follower => simpa only [step, hfound, hrole] using Move.leave hseat hrole
  | advance span => exact Move.advance span

/-- A move keeps the terms of a cache, and time does not go back. -/
theorem Move.terms_eq {c c' : Cache} {event : Event} {new : List Effect}
    (hmove : Move c event c' new) : c'.terms = c.terms ∧ c.now ≤ c'.now := by
  cases hmove with
  | advance span => exact ⟨rfl, Nat.le_add_right _ _⟩
  | _ => exact ⟨rfl, Nat.le_refl _⟩

/-- What is seen along a run, where each event shows something of the state it meets. -/
def along {A : Type} (look : Cache → Event → List A) (c : Cache) : List Event → List A
  | [] => []
  | event :: rest => look c event ++ along look (c.step event).1 rest

/-- The effects of a run are those of its steps. -/
theorem run_effects (c : Cache) (events : List Event) :
    (c.run events).2 = c.along (fun c event => (c.step event).2) events := by
  induction events generalizing c with
  | nil => rfl
  | cons event rest ih => simp [run, along, ih]

/-- What holds of a state and of all that was seen before it, and is kept by every step, holds after
a run. -/
theorem along_induction {A : Type} (look : Cache → Event → List A) {P : Cache → List A → Prop}
    (hstep : ∀ c seen event, P c seen → P (c.step event).1 (seen ++ look c event))
    (c : Cache) (seen : List A) (hstart : P c seen) (events : List Event) :
    P (c.run events).1 (seen ++ c.along look events) := by
  induction events generalizing c seen with
  | nil => simpa [run, along] using hstart
  | cons event rest ih =>
    simpa [run, along, List.append_assoc] using ih _ _ (hstep c seen event hstart)

/-- What every move keeps of a state and of the effects so far holds after a run. -/
theorem run_induction {P : Cache → List Effect → Prop}
    (hmove : ∀ {c event c' new} (effects : List Effect),
      Move c event c' new → P c effects → P c' (effects ++ new))
    {c : Cache} (hstart : P c []) (events : List Event) : P (c.run events).1 (c.run events).2 := by
  have h := along_induction (fun c event => (c.step event).2)
    (fun c effects event => hmove effects (step_move c event)) c [] hstart events
  simpa only [List.nil_append, ← run_effects] using h

end FreshKeys.Refresh.Cache
