import FreshKeys.Proofs.Refresh.Absence

/-!
# Followers are observers

A run in which a call follows a refresh can be told without the call: what the others do then, they
do without it as well, at the same instants, in the same roles and with the same outcome. Only the
number of those who wait, and the number of followers at the end of that refresh, are smaller by
one. A follower that is given up is not even missing in these numbers.
-/

namespace FreshKeys.Refresh

/-- The call that an event is about. -/
def Event.call? : Event → Option Call
  | .join call | .answer call _ | .timeOut call | .wake call | .drop call => some call
  | .advance _ => none

namespace Effect

/-- Whether an effect is the return of a call. -/
def isReturnOf (call : Call) : Effect → Bool
  | .returned other _ => other == call
  | _ => false

/-- Whether an effect is the note that all followers have gone. -/
def isDesertion : Effect → Bool
  | .noted (.followersGone _) => true
  | _ => false

/-- The same effect of a refresh that so many more have followed. -/
def more (count : ℕ) : Effect → Effect
  | .finished cycle outcome followers => .finished cycle outcome (followers + count)
  | .noted (.refreshed maskedId followers) => .noted (.refreshed maskedId (followers + count))
  | .noted (.refreshFailed message followers) => .noted (.refreshFailed message (followers + count))
  | .noted (.refreshCancelled followers) => .noted (.refreshCancelled (followers + count))
  | effect => effect

/-- How the effects of an event differ when so many fewer have followed a refresh: their number at
its end does, and that all of them have gone may be noted in one case and not in the other. -/
inductive Fewer (cycle fewer : ℕ) : List Effect → List Effect → Prop where
  | same {new : List Effect} (hother : cycle ∉ new.filterMap ended?) : Fewer cycle fewer new new
  | atEnd {new new' : List Effect} (hends : cycle ∈ new.filterMap ended?)
    (hmore : new.filter (fun e => !e.isDesertion) =
      (new'.filter fun e => !e.isDesertion).map (more fewer)) : Fewer cycle fewer new new'

end Effect

open Effect (Fewer)

namespace Cache

/-- What comes of an event in a cache and in the cache without a follower. -/
structure Alongside (missing : Option Call) (cycle fewer : ℕ) (c c' : Cache)
    (result result' : Cache × List Effect) : Prop where
  state : Absence missing cycle fewer result.1 result'.1
  effects : Fewer cycle fewer result.2 result'.2
  /-- If the event can happen in one of them, it can happen in the other. -/
  heeded : result = (c, []) ↔ result' = (c', [])

/-- That all have gone is all that is said of it. -/
theorem filter_abandonment (c : Cache) :
    c.abandonment.filter (fun e => !e.isDesertion) = [] := by
  rw [List.filter_eq_nil_iff]
  intro e he
  simp [mem_abandonment he, Effect.isDesertion]

namespace Absence

variable {missing : Option Call} {cycle fewer : ℕ} {c c' : Cache}

/-- Nothing happens in either. -/
theorem still (h : Absence missing cycle fewer c c') :
    Alongside missing cycle fewer c c' (c, []) (c', []) :=
  ⟨h, .same List.not_mem_nil, by simp⟩

/-- What is said at the end of a refresh differs in the number of followers, if it is the refresh of
the missing call. -/
theorem fewer_at_end (h : Absence missing cycle fewer c c') (hc' : Coherent c') {k : ℕ}
    (hsignal : c.cohort.signal = some k) (outcome : Outcome) (rest : ℕ → List Effect)
    (hasides : ∀ n, ∀ e ∈ rest n, e.isAside = true)
    (hkept : ∀ n, (rest n).filter (fun e => !e.isDesertion) = rest n)
    (hmore : ∀ n, (rest n).map (Effect.more fewer) = rest (n + fewer)) :
    Fewer cycle fewer
      (c.abandonment ++ .finished k outcome c.cohort.followers :: rest c.cohort.followers)
      (c'.abandonment ++ .finished k outcome c'.cohort.followers :: rest c'.cohort.followers) := by
  have hended := c.ended_over k outcome c.cohort.followers (hasides c.cohort.followers)
  have hfollowers := h.followers_eq hc' hsignal
  by_cases hk : k = cycle
  · refine .atEnd (by rw [hended, hk]; exact List.mem_singleton_self _) ?_
    rw [if_pos hk] at hfollowers
    have hkeep (n : ℕ) : (Effect.finished k outcome n :: rest n).filter (fun e => !e.isDesertion) =
        .finished k outcome n :: rest n := by
      rw [List.filter_cons_of_pos (by rfl), hkept]
    rw [List.filter_append, List.filter_append, filter_abandonment, filter_abandonment, hkeep,
      hkeep, List.nil_append, List.nil_append, List.map_cons, hmore, hfollowers]
    rfl
  · have hsame : c'.abandonment = c.abandonment := by
      rw [if_neg hk, Nat.add_zero] at hfollowers
      simp only [abandonment, h.signal, hsignal, hfollowers, h.isFollowed_eq hk]
    rw [if_neg hk, Nat.add_zero] at hfollowers
    rw [hsame, ← hfollowers]
    refine .same ?_
    rw [hended, List.mem_singleton]
    exact Ne.symm hk

/-- What was fetched is taken over in both, or in neither. -/
theorem absorb_eq (h : Absence missing cycle fewer c c') (fetched : Except Failure Secret) :
    ∃ tracked window outcome, c.absorb fetched = ({ c with tracked, window }, outcome) ∧
      c'.absorb fetched = ({ c' with tracked, window }, outcome) := by
  cases fetched with
  | error failure =>
    refine ⟨c.tracked, c.window, .failure failure, rfl, ?_⟩
    rw [← h.tracked, ← h.window]
    rfl
  | ok secret =>
    cases hmerge : c.tracked.merge secret with
    | error failure =>
      refine ⟨c.tracked, c.window, .failure failure, by simp only [absorb, hmerge], ?_⟩
      simp only [absorb, h.tracked, hmerge, ← h.window]
      rw [← h.tracked]
    | ok tracked =>
      refine ⟨tracked, c.window.extend c.terms.ttl c.now, .pair tracked.pair, ?_, ?_⟩
      · simp only [absorb, hmerge]
      · simp only [absorb, h.tracked, hmerge, h.window, h.terms, h.now]

/-- The leader takes in what was fetched. -/
theorem commit (h : Absence missing cycle fewer c c') (hc : Coherent c) (hc' : Coherent c')
    {seat : Seat} (hseat : seat ∈ c.seats) (hleads : seat.role = .leader)
    (fetched : Except Failure Secret) :
    Alongside missing cycle fewer c c' (c.commit seat fetched) (c'.commit seat fetched) := by
  obtain ⟨tracked, window, outcome, habsorb, habsorb'⟩ := h.absorb_eq fetched
  have hsignal := (hc.of_leader hseat hleads).1
  have hfinished := (h.update tracked window).finish (hc.update c.now tracked window)
    (hc'.update c'.now tracked window) hsignal outcome
  have heffects := h.fewer_at_end hc' hsignal outcome
    (fun n => [.noted (ending n outcome), .returned seat.call outcome])
    (by simp [Effect.isAside]) (by cases outcome <;> simp [ending, Effect.isDesertion])
    (by cases outcome <;> simp [ending, Effect.more])
  simp only [Cache.commit, habsorb, habsorb']
  exact ⟨hfinished.leave seat.call, heffects, by simp⟩

/-- The leader is given up. -/
theorem cancel (h : Absence missing cycle fewer c c') (hc : Coherent c) (hc' : Coherent c')
    {seat : Seat} (hseat : seat ∈ c.seats) (hleads : seat.role = .leader) :
    Alongside missing cycle fewer c c' (c.cancel seat) (c'.cancel seat) := by
  have hsignal := (hc.of_leader hseat hleads).1
  have hfinished := h.finish hc hc' hsignal (.failure cancelled)
  have heffects := h.fewer_at_end hc' hsignal (.failure cancelled)
    (fun n => [.noted (.refreshCancelled n)])
    (by simp [Effect.isAside]) (by simp [Effect.isDesertion]) (by simp [Effect.more])
  exact ⟨hfinished.leave seat.call, heffects, by simp [Cache.cancel]⟩

/-- A call joins, in the same role and the same refresh. -/
theorem join (h : Absence missing cycle fewer c c') (hc : Coherent c) (hc' : Coherent c')
    {call : Call} (hother : missing ≠ some call) :
    Alongside missing cycle fewer c c' (c.join call) (c'.join call) := by
  cases hsignal : c.cohort.signal with
  | none =>
    have hjoin : c.cohort.join c.cycles.length =
        (⟨1, some c.cycles.length⟩, .leader, c.cycles.length) := by
      simp [Cohort.join, hsignal]
    have hjoin' : c'.cohort.join c'.cycles.length =
        (⟨1, some c'.cycles.length⟩, .leader, c'.cycles.length) := by
      simp [Cohort.join, h.signal, hsignal]
    simp only [Cache.join, hjoin, hjoin', place_length]
    refine ⟨h.lead hother, ?_, by simp⟩
    rw [h.length_eq, h.terms]
    exact .same (by simp [Effect.ended?])
  | some k =>
    have hwaiters : 0 < c.cohort.waiters := by
      simp [hc.waiters_pos_iff, hsignal]
    have hwaiters' : 0 < c'.cohort.waiters := by
      simp [hc'.waiters_pos_iff, h.signal, hsignal]
    have hjoin : c.cohort.join c.cycles.length =
        (⟨c.cohort.waiters + 1, some k⟩, .follower, k) := by
      simp [Cohort.join, hsignal, hwaiters]
    have hjoin' : c'.cohort.join c'.cycles.length =
        (⟨c'.cohort.waiters + 1, some k⟩, .follower, k) := by
      simp [Cohort.join, h.signal, hsignal, hwaiters']
    simp only [Cache.join, hjoin, hjoin']
    exact ⟨h.follow hother hsignal, .same (by simp [Effect.ended?]), by simp⟩

/-- Who waits is gone when it has stopped waiting. -/
theorem leave_heeded (h : Absence missing cycle fewer c c') {s : Seat} (hs : s ∈ c.seats)
    (hother : missing ≠ some s.call) : c.leave s.call ≠ c ∧ c'.leave s.call ≠ c' := by
  have hstays {c : Cache} (hs : s ∈ c.seats) : c.leave s.call ≠ c := by
    intro hsame
    rw [← hsame] at hs
    simp [Cache.leave] at hs
  exact ⟨hstays hs, hstays (h.mem_seats.mpr ⟨hs, hother⟩)⟩

/-- An event of another call does in one what it does in the other. -/
theorem step (h : Absence missing cycle fewer c c') (hc : Coherent c) (hc' : Coherent c')
    (event : Event) (hother : ∀ call, event.call? = some call → missing ≠ some call) :
    Alongside missing cycle fewer c c' (c.step event) (c'.step event) := by
  cases event with
  | join call =>
    have hcall := hother call rfl
    simp only [Cache.step, h.seat?_eq hcall]
    cases c.seat? call with
    | none => exact h.join hc hc' hcall
    | some seat => exact h.still
  | answer call reply =>
    have hcall := hother call rfl
    simp only [Cache.step, h.seatAs?_eq hcall, h.terms]
    cases hfound : c.seatAs? .leader call with
    | none => exact h.still
    | some seat =>
      obtain ⟨hseat, -, hleads⟩ := mem_of_seatAs? hfound
      exact h.commit hc hc' hseat hleads _
  | timeOut call =>
    have hcall := hother call rfl
    simp only [Cache.step, h.seatAs?_eq hcall, h.terms, h.isDue_eq]
    cases hfound : c.seatAs? .leader call with
    | none => exact h.still
    | some seat =>
      obtain ⟨hseat, -, hleads⟩ := mem_of_seatAs? hfound
      by_cases hdue : c.isDue seat.cycle = true
      · simp only [hdue, if_true]
        exact h.commit hc hc' hseat hleads _
      · simp only [hdue]
        exact h.still
  | wake call =>
    have hcall := hother call rfl
    simp only [Cache.step, h.seatAs?_eq hcall]
    cases hfound : c.seatAs? .follower call with
    | none => exact h.still
    | some seat =>
      obtain ⟨hseat, rfl, hfollows⟩ := mem_of_seatAs? hfound
      simp only [h.receipt?_eq (h.mem_seats.mpr ⟨hseat, hcall⟩) hfollows]
      cases c.receipt? seat with
      | none => exact h.still
      | some receipt => exact ⟨h.leave _, .same (by simp [Effect.ended?]), by simp⟩
  | drop call =>
    have hcall := hother call rfl
    simp only [Cache.step, h.seat?_eq hcall]
    cases hfound : c.seat? call with
    | none => exact h.still
    | some seat =>
      obtain ⟨hseat, rfl⟩ := mem_of_seat? hfound
      cases hrole : seat.role with
      | leader =>
        simp only [hrole]
        exact h.cancel hc hc' hseat hrole
      | follower =>
        obtain ⟨hleft, hleft'⟩ := h.leave_heeded hseat hcall
        simp only [hrole]
        exact ⟨h.leave _, .same List.not_mem_nil, by simp [hleft, hleft']⟩
  | advance span =>
    have hpasses (c : Cache) : c.step (.advance span) = (c, []) ↔ span = 0 := by
      constructor
      · intro hsame
        have hnow : c.now + span = c.now := congrArg (fun result => result.1.now) hsame
        omega
      · rintro rfl
        rfl
    exact ⟨h.advance span, .same List.not_mem_nil, (hpasses c).trans (hpasses c').symm⟩

end Absence

/-- The moments of a run: each event, with the state that it meets. -/
def moments (c : Cache) (events : List Event) : List (Cache × Event) :=
  c.along (fun c event => [(c, event)]) events

/-- The moments of a run but for those of a call, as long as it waits. -/
def momentsBut (call : Call) (c : Cache) : List Event → List (Cache × Event)
  | [] => []
  | event :: rest =>
    if (c.seat? call).isNone then c.moments (event :: rest)
    else if event.call? = some call then (c.step event).1.momentsBut call rest
    else (c, event) :: (c.step event).1.momentsBut call rest

/-- The events of a run but for those of a call, as long as it waits. -/
def eventsBut (call : Call) (c : Cache) (events : List Event) : List Event :=
  (c.momentsBut call events).map Prod.snd

/-- A cache and the cache without a call that follows a refresh, whether the call still waits or
does so no more. -/
def Without (call : Call) (cycle fewer : ℕ) (c c' : Cache) : Prop :=
  Absence (some call) cycle fewer c c' ∨ Absence none cycle fewer c c'

/-- Two moments with the same event, the second in a run without a call. -/
structure Together (call : Call) (cycle fewer : ℕ) (m m' : Cache × Event) : Prop where
  event : m'.2 = m.2
  /-- The time, the pair and the window are the same, and so are the refreshes that have begun. -/
  state : Without call cycle fewer m.1 m'.1
  /-- Who joins, joins in the same role and the same refresh, and who returns, returns the same. -/
  effects : Fewer cycle fewer (m.1.step m.2).2 (m'.1.step m'.2).2
  heeded : m.1.step m.2 = (m.1, []) ↔ m'.1.step m'.2 = (m'.1, [])

/-- What happens in a run from `c` to all others happens without a call in a run from `c'`. -/
structure Undisturbed (call : Call) (cycle fewer : ℕ) (c c' : Cache) (events : List Event) :
    Prop where
  moments : List.Forall₂ (Together call cycle fewer) (c.momentsBut call events)
    (c'.moments (c.eventsBut call events))
  last : Without call cycle fewer (c.run events).1 (c'.run (c.eventsBut call events)).1
  /-- At the moments that are left out, nothing comes to pass but the return of the call. -/
  complete : (c.run events).2.filter (fun e => !e.isReturnOf call) =
    ((c.momentsBut call events).flatMap fun m => (m.1.step m.2).2).filter
      fun e => !e.isReturnOf call

/-- A run has its first moment, and then those of the rest. -/
theorem moments_cons (c : Cache) (event : Event) (rest : List Event) :
    c.moments (event :: rest) = (c, event) :: (c.step event).1.moments rest := rfl

/-- The moments of a run have its events, and its effects. -/
theorem map_moments (c : Cache) (events : List Event) :
    (c.moments events).map Prod.snd = events ∧
      ((c.moments events).flatMap fun m => (m.1.step m.2).2) = (c.run events).2 := by
  induction events generalizing c with
  | nil => exact ⟨rfl, rfl⟩
  | cons event rest ih =>
    rw [moments_cons, List.map_cons, List.flatMap_cons, (ih _).1, (ih _).2]
    exact ⟨rfl, rfl⟩

/-- A refresh ends with an event of its leader. -/
theorem Ending.call?_eq {c : Cache} {seat : Seat} {event : Event} {outcome : Outcome}
    {tracked : TrackedPair} {window : Window} {rest : List Effect}
    (h : Ending c seat event outcome tracked window rest) : event.call? = some seat.call := by
  have hfetched {fetched : Except Failure Secret} (h : Fetched c seat event fetched) :
      event.call? = some seat.call := by
    cases h <;> rfl
  cases h with
  | taken h => exact hfetched h
  | refused h => exact hfetched h
  | failed h => exact hfetched h
  | cancelled => rfl

/-- A follower's own events at most end its waiting, and let it return. -/
theorem Move.of_follower {c c' : Cache} {event : Event} {new : List Effect}
    (hmove : Move c event c' new) (hc : Coherent c) {s : Seat} (hs : s ∈ c.seats)
    (hfollows : s.role = .follower) (hown : event.call? = some s.call) :
    (c' = c ∨ c' = c.leave s.call) ∧ ∀ e ∈ new, e.isReturnOf s.call = true := by
  cases hmove with
  | still => exact ⟨Or.inl rfl, fun _ he => absurd he List.not_mem_nil⟩
  | lead call hfree => exact absurd (Option.some.inj hown).symm (seat?_eq_none_iff.mp hfree s hs)
  | follow call k hfree =>
    exact absurd (Option.some.inj hown).symm (seat?_eq_none_iff.mp hfree s hs)
  | finish hseat hleads hending =>
    have hcall := Option.some.inj (hending.call?_eq.symm.trans hown)
    rw [hc.eq_of_call_eq hseat hs hcall, hfollows] at hleads
    cases hleads
  | receive =>
    rw [Option.some.inj hown]
    exact ⟨Or.inr rfl, by simp [Effect.isReturnOf]⟩
  | leave =>
    rw [Option.some.inj hown]
    exact ⟨Or.inr rfl, fun _ he => absurd he List.not_mem_nil⟩
  | advance => cases hown

namespace Absence

variable {call : Call} {cycle fewer : ℕ} {c c' : Cache}

/-- When the call does not wait any more, everything else goes on as it is. -/
theorem moments_of_gone (h : Absence none cycle fewer c c') (call : Call) (hc : Coherent c)
    (hc' : Coherent c') (events : List Event) :
    List.Forall₂ (Together call cycle fewer) (c.moments events) (c'.moments events) ∧
      Absence none cycle fewer (c.run events).1 (c'.run events).1 := by
  induction events generalizing c c' with
  | nil => exact ⟨.nil, h⟩
  | cons event rest ih =>
    have hstep := h.step hc hc' event (by simp)
    obtain ⟨hmoments, hlast⟩ := ih hstep.state (hc.step event) (hc'.step event)
    exact ⟨.cons ⟨rfl, Or.inr h, hstep.effects, hstep.heeded⟩ hmoments, hlast⟩

/-- The others are not disturbed by the end of the waiting either. -/
theorem undisturbed (h : Absence (some call) cycle fewer c c') (hc : Coherent c)
    (hc' : Coherent c') (events : List Event) : Undisturbed call cycle fewer c c' events := by
  induction events generalizing c c' with
  | nil => exact ⟨.nil, Or.inl h, rfl⟩
  | cons event rest ih =>
    cases hseat : c.seat? call with
    | none =>
      have hgone := h.gone fun s hs hmissing =>
        seat?_eq_none_iff.mp hseat s hs (Option.some.inj hmissing).symm
      have hbut : c.momentsBut call (event :: rest) = c.moments (event :: rest) := by
        simp [momentsBut, hseat]
      obtain ⟨hmoments, hlast⟩ := hgone.moments_of_gone call hc hc' (event :: rest)
      have hevents : c.eventsBut call (event :: rest) = event :: rest := by
        rw [eventsBut, hbut, (c.map_moments _).1]
      exact ⟨by rwa [hevents, hbut], by rw [hevents]; exact Or.inr hlast, by
        rw [hbut, (c.map_moments _).2]⟩
    | some s =>
      obtain ⟨hs, rfl⟩ := mem_of_seat? hseat
      obtain ⟨hfollows, -⟩ := h.missed s hs rfl
      by_cases hown : event.call? = some s.call
      · -- the event is left out, and the state without the call stays behind
        have hbut : c.momentsBut s.call (event :: rest) =
            (c.step event).1.momentsBut s.call rest := by
          simp [momentsBut, hseat, hown]
        have hevents : c.eventsBut s.call (event :: rest) =
            (c.step event).1.eventsBut s.call rest :=
          congrArg (List.map Prod.snd) hbut
        obtain ⟨hnext, hreturn⟩ := (step_move c event).of_follower hc hs hfollows hown
        have hstate : Absence (some s.call) cycle fewer (c.step event).1 c' := by
          rcases hnext with hsame | hleft
          · rwa [hsame]
          · rw [hleft]
            exact h.left
        have hrest := ih hstate (hc.step event) hc'
        refine ⟨by rw [hbut, hevents]; exact hrest.moments, by rw [hevents]; exact hrest.last, ?_⟩
        have hnone : (c.step event).2.filter (fun e => !e.isReturnOf s.call) = [] :=
          List.filter_eq_nil_iff.mpr fun e he => by simp [hreturn e he]
        rw [hbut, ← hrest.complete, run, List.filter_append, hnone, List.nil_append]
      · have hbut : c.momentsBut s.call (event :: rest) =
            (c, event) :: (c.step event).1.momentsBut s.call rest := by
          simp [momentsBut, hseat, hown]
        have hevents : c.eventsBut s.call (event :: rest) =
            event :: (c.step event).1.eventsBut s.call rest :=
          congrArg (List.map Prod.snd) hbut
        have hstep := h.step hc hc' event fun call hcall hmissing =>
          hown (hcall.trans hmissing.symm)
        have hrest := ih hstep.state (hc.step event) (hc'.step event)
        refine ⟨?_, ?_, ?_⟩
        · rw [hbut, hevents, moments_cons]
          exact .cons ⟨rfl, Or.inl h, hstep.effects, hstep.heeded⟩ hrest.moments
        · rw [hevents]
          exact hrest.last
        · rw [hbut, List.flatMap_cons, run, List.filter_append, List.filter_append, hrest.complete]

/-- A call that has joined as a follower is all that is missing without it. -/
theorem joined (hc : Coherent c)
    (hfollows : (c.step (.join call)).2 = [.joined call .follower cycle]) :
    Absence (some call) cycle 1 (c.step (.join call)).1 c := by
  have hmove := step_move c (.join call)
  generalize (c.step (.join call)).1 = c' at hmove
  generalize (c.step (.join call)).2 = new at hmove hfollows
  cases hmove with
  | still => cases hfollows
  | lead => simp at hfollows
  | finish _ _ hending =>
    have hjoined : .joined call .follower cycle ∈ [Effect.joined call .follower cycle] :=
      List.mem_singleton_self _
    cases hending.eq_finished (hfollows ▸ hjoined) rfl
  | follow _ k hfree hsignal =>
    obtain rfl : k = cycle := by simpa using hfollows
    have hfree := seat?_eq_none_iff.mp hfree
    refine ⟨rfl, rfl, rfl, rfl, hsignal, ?_, ?_, ?_, ?_, rfl, fun _ _ => rfl, fun _ => rfl⟩
    · simp
    · have hothers : c.seats.filter (fun s => some call != some s.call) = c.seats :=
        List.filter_eq_self.mpr fun s hs => by simpa using Ne.symm (hfree s hs)
      simp [hothers]
    · intro s hs hmissing
      rcases List.mem_append.mp hs with hs | hs
      · exact absurd (Option.some.inj hmissing).symm (hfree s hs)
      · rw [List.mem_singleton.mp hs]
        exact ⟨rfl, rfl⟩
    · have hlast := (hc.busy k hsignal).last
      change k < c.cycles.length
      omega

/-- A follower that has been given up is missing, but still counted. -/
theorem dropped (hc : Coherent c) {s : Seat} (hs : s ∈ c.seats) (hfollows : s.role = .follower) :
    Absence (some s.call) s.cycle 0 c (c.step (.drop s.call)).1 := by
  have hstep : (c.step (.drop s.call)).1 = c.leave s.call := by
    simp [Cache.step, hc.seat?_eq hs, hfollows]
  rw [hstep]
  refine ⟨rfl, rfl, rfl, rfl, rfl, ?_, ?_, ?_, hc.cycle_lt hs hfollows, rfl, fun _ _ => rfl,
    fun _ => rfl⟩
  · simp [Cache.leave]
  · refine List.filter_congr fun t _ => ?_
    rw [Bool.eq_iff_iff, bne_iff_ne, bne_iff_ne, ne_comm]
    exact not_congr Option.some_inj.symm
  · intro t ht hmissing
    rw [hc.eq_of_call_eq ht hs (Option.some.inj hmissing).symm]
    exact ⟨hfollows, rfl⟩

end Absence

/-- At any point of any run, a call that joins as a follower disturbs nobody: what happens
afterwards to all others happens without it as well. Nor does a follower that is given up: what
happens to all others then, happens as well if it is not. -/
theorem undisturbed_run (terms : Terms) (accessKeyName secretKeyName : String)
    (before after : List Event) :
    let c := ((fresh terms accessKeyName secretKeyName).run before).1
    (∀ call cycle, (c.step (.join call)).2 = [.joined call .follower cycle] →
      Undisturbed call cycle 1 (c.step (.join call)).1 c after) ∧
    ∀ s ∈ c.seats, s.role = .follower →
      Undisturbed s.call s.cycle 0 c (c.step (.drop s.call)).1 after := by
  intro c
  have hc : Coherent c := (Coherent.fresh _ _ _).run before
  constructor
  · intro call cycle hfollows
    exact (Absence.joined hc hfollows).undisturbed (hc.step _) hc after
  · intro s hs hfollows
    exact (Absence.dropped hc hs hfollows).undisturbed hc (hc.step _) after

/-- The second of two followers waits on while a secret arrives, the first one wakes, and the second
one wakes when the next refresh has begun. -/
theorem undisturbed_by_late_waker :
    let first : Call := ⟨0, 1, .fetch⟩
    let second : Call := ⟨1, 1, .fetch⟩
    let third : Call := ⟨2, 1, .fetch⟩
    let c := ((fresh ⟨"secret/aws", 6000, 5000⟩ "ak" "sk").run [.join first, .join second]).1
    let after := [Event.answer first (.secret [("ak", .text "AKIA1"), ("sk", .text "S1")]),
      .wake second, .join ⟨0, 2, .fetch⟩, .wake third]
    (c.step (.join third)).2 = [.joined third .follower 0] ∧
      Undisturbed third 0 1 (c.step (.join third)).1 c after ∧
      Undisturbed second 0 0 c (c.step (.drop second)).1 after := by
  intro first second third c after
  have hrun :=
    undisturbed_run ⟨"secret/aws", 6000, 5000⟩ "ak" "sk" [.join first, .join second] after
  have hthird : (c.step (.join third)).2 = [.joined third .follower 0] := by decide
  refine ⟨hthird, hrun.1 third 0 hthird, ?_⟩
  exact hrun.2 ⟨second, 0, .follower, 0⟩ (by decide) rfl

end Cache

end FreshKeys.Refresh
