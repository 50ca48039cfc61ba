import FreshKeys.Proofs.Refresh.SingleFlight

/-!
# A cache without one of its followers

Of a follower a cache keeps a seat, and one in the counter until its refresh is over. A cache that
has neither, and is the same otherwise, takes every event of the other calls in the same way: they
are found at the same seats, read the same channels and come to the same outcome. Only the channel
of the follower's own refresh may differ once it is over, and only if nobody else waits for it.
-/

namespace FreshKeys.Refresh

namespace Cache

/-- A cache `c'` is a cache `c` but for a follower of a refresh: it has no seat for the call that is
missing, and counts so many fewer as long as the refresh is in flight. -/
structure Absence (missing : Option Call) (cycle fewer : ℕ) (c c' : Cache) : Prop where
  terms : c'.terms = c.terms
  now : c'.now = c.now
  tracked : c'.tracked = c.tracked
  window : c'.window = c.window
  signal : c'.cohort.signal = c.cohort.signal
  waiters : c.cohort.waiters =
    c'.cohort.waiters + if c.cohort.signal = some cycle then fewer else 0
  seats : c'.seats = c.seats.filter fun s => missing != some s.call
  missed : ∀ s ∈ c.seats, missing = some s.call → s.role = .follower ∧ s.cycle = cycle
  begun : cycle < c.cycles.length
  starts : c'.cycles.map Cycle.startedAt = c.cycles.map Cycle.startedAt
  elsewhere : ∀ k, k ≠ cycle → c'.cycles[k]? = c.cycles[k]?
  /-- Whoever else waits for the refresh finds the same on its channel. -/
  heard : c.cohort.signal = some cycle ∨ c'.isFollowed cycle = true →
    c'.cycles[cycle]? = c.cycles[cycle]?

/-- If a refresh is followed, its followers are counted. -/
theorem Coherent.isFollowed_counted {c : Cache} (h : Coherent c) {cycle : ℕ}
    (hsignal : c.cohort.signal = some cycle) :
    (decide (0 < c.cohort.followers) && c.isFollowed cycle) = c.isFollowed cycle := by
  cases hfollowed : c.isFollowed cycle with
  | false => exact Bool.and_false _
  | true =>
    have hpos : 0 < (c.followers cycle).length :=
      List.length_pos_iff.mpr (isFollowed_iff.mp hfollowed)
    have hlt := (h.busy cycle hsignal).counted
    have hcounted : 0 < c.cohort.followers := by
      simp only [Cohort.followers]
      omega
    simp [hcounted]

/-- The end of a refresh leaves all other refreshes alone. -/
theorem Coherent.getElem?_finish {c : Cache} (h : Coherent c) {cycle : ℕ}
    (hsignal : c.cohort.signal = some cycle) (outcome : Outcome) (k : ℕ) :
    (c.finish outcome).cycles[k]? =
      if cycle = k then c.cycles[k]?.map fun x => x.finish (c.isFollowed cycle) outcome
      else c.cycles[k]? := by
  by_cases hk : cycle = k
  · subst hk
    simp [Cache.finish, hsignal, h.isFollowed_counted hsignal]
  · simp [Cache.finish, hsignal, hk]

namespace Absence

variable {missing : Option Call} {cycle fewer : ℕ} {c c' : Cache}

/-- As many refreshes have begun. -/
theorem length_eq (h : Absence missing cycle fewer c c') : c'.cycles.length = c.cycles.length := by
  simpa using congrArg List.length h.starts

/-- All the other calls wait, and nobody else. -/
theorem mem_seats (h : Absence missing cycle fewer c c') {s : Seat} :
    s ∈ c'.seats ↔ s ∈ c.seats ∧ missing ≠ some s.call := by
  simp [h.seats]

/-- Another call has the seat that it has. -/
theorem seat?_eq (h : Absence missing cycle fewer c c') {call : Call}
    (hother : missing ≠ some call) : c'.seat? call = c.seat? call := by
  rw [seat?, h.seats, List.find?_filter, seat?]
  congr 1
  funext s
  by_cases hcall : s.call = call
  · simp [hcall, hother]
  · simp [hcall]

/-- Another call has the role that it has. -/
theorem seatAs?_eq (h : Absence missing cycle fewer c c') {call : Call}
    (hother : missing ≠ some call) (role : Role) : c'.seatAs? role call = c.seatAs? role call := by
  rw [seatAs?, h.seats, List.find?_filter, seatAs?]
  congr 1
  funext s
  by_cases hcall : s.call = call
  · by_cases hrole : s.role = role <;> simp [hcall, hother, hrole]
  · simp [hcall]

/-- Whoever follows without the missing call follows with it. -/
theorem isFollowed_of (h : Absence missing cycle fewer c c') {k : ℕ}
    (hfollowed : c'.isFollowed k = true) : c.isFollowed k = true := by
  simp only [isFollowed, List.any_eq_true] at hfollowed ⊢
  obtain ⟨s, hs, hfollows⟩ := hfollowed
  exact ⟨s, (h.mem_seats.mp hs).1, hfollows⟩

/-- The missing call follows one refresh only. -/
theorem isFollowed_eq (h : Absence missing cycle fewer c c') {k : ℕ} (hk : k ≠ cycle) :
    c'.isFollowed k = c.isFollowed k := by
  rw [Bool.eq_iff_iff]
  constructor
  · exact h.isFollowed_of
  · intro hfollowed
    simp only [isFollowed, List.any_eq_true, Bool.and_eq_true, beq_iff_eq] at hfollowed ⊢
    obtain ⟨s, hs, hfollows, rfl⟩ := hfollowed
    refine ⟨s, h.mem_seats.mpr ⟨hs, fun hmissing => hk ?_⟩, hfollows, rfl⟩
    exact (h.missed s hs hmissing).2

/-- As many have followed the refresh in flight, unless it is the one of the missing call. -/
theorem followers_eq (h : Absence missing cycle fewer c c') (hc' : Coherent c') {k : ℕ}
    (hsignal : c.cohort.signal = some k) :
    c.cohort.followers = c'.cohort.followers + if k = cycle then fewer else 0 := by
  have hcounted := (hc'.busy k (h.signal.trans hsignal)).counted
  have hwaiters := h.waiters
  rw [hsignal] at hwaiters
  simp only [Option.some.injEq] at hwaiters
  simp only [Cohort.followers]
  omega

/-- A call that joins is given the same place. -/
theorem place_eq (h : Absence missing cycle fewer c c') {k : ℕ}
    (hsignal : c.cohort.signal = some k) : c'.place k = c.place k := by
  have hsame : c'.cycles[k]? = c.cycles[k]? := by
    by_cases hk : k = cycle
    · rw [hk]
      exact h.heard (Or.inl (hk ▸ hsignal))
    · exact h.elsewhere k hk
  rw [place, hsame, place]

/-- A read is due at the same time. -/
theorem isDue_eq (h : Absence missing cycle fewer c c') (k : ℕ) : c'.isDue k = c.isDue k := by
  have hdue (c : Cache) : c.isDue k = (c.cycles.map Cycle.startedAt)[k]?.any fun start =>
      decide (start + c.terms.fetchTimeout ≤ c.now) := by
    rw [isDue, List.getElem?_map]
    cases c.cycles[k]? <;> rfl
  rw [hdue, hdue, h.starts, h.terms, h.now]

/-- Another follower is given what it is given. -/
theorem receipt?_eq (h : Absence missing cycle fewer c c') {s : Seat} (hs : s ∈ c'.seats)
    (hfollows : s.role = .follower) : c'.receipt? s = c.receipt? s := by
  have hsame : c'.cycles[s.cycle]? = c.cycles[s.cycle]? := by
    by_cases hk : s.cycle = cycle
    · have hfollowed : c'.isFollowed cycle = true :=
        List.any_eq_true.mpr ⟨s, hs, by simp [hfollows, hk]⟩
      rw [hk]
      exact h.heard (Or.inr hfollowed)
    · exact h.elsewhere _ hk
  rw [receipt?, hsame, receipt?]

/-- Once the missing call does not wait any more, nobody is missing. -/
theorem gone (h : Absence missing cycle fewer c c')
    (hgone : ∀ s ∈ c.seats, missing ≠ some s.call) : Absence none cycle fewer c c' where
  terms := h.terms
  now := h.now
  tracked := h.tracked
  window := h.window
  signal := h.signal
  waiters := h.waiters
  seats := by
    have hall : c.seats.filter (fun s => missing != some s.call) = c.seats :=
      List.filter_eq_self.mpr fun s hs => by simpa using hgone s hs
    rw [h.seats, hall]
    exact (List.filter_eq_self.mpr fun _ _ => rfl).symm
  missed _ _ hnone := by cases hnone
  begun := h.begun
  starts := h.starts
  elsewhere := h.elsewhere
  heard := h.heard

/-- If the missing call stops waiting, it is still missing without it. -/
theorem left {call : Call} (h : Absence (some call) cycle fewer c c') :
    Absence (some call) cycle fewer (c.leave call) c' where
  terms := h.terms
  now := h.now
  tracked := h.tracked
  window := h.window
  signal := h.signal
  waiters := h.waiters
  seats := by
    rw [h.seats, leave, List.filter_filter]
    refine List.filter_congr fun s _ => ?_
    by_cases hcall : s.call = call
    · simp [hcall]
    · simp [hcall, Ne.symm hcall]
  missed s hs := h.missed s (List.mem_of_mem_filter hs)
  begun := h.begun
  starts := h.starts
  elsewhere := h.elsewhere
  heard := h.heard

/-- Any call may stop waiting in both. -/
theorem leave (h : Absence missing cycle fewer c c') (call : Call) :
    Absence missing cycle fewer (c.leave call) (c'.leave call) where
  terms := h.terms
  now := h.now
  tracked := h.tracked
  window := h.window
  signal := h.signal
  waiters := h.waiters
  seats := by
    simp only [Cache.leave, h.seats, List.filter_filter]
    exact List.filter_congr fun s _ => Bool.and_comm _ _
  missed s hs := h.missed s (List.mem_of_mem_filter hs)
  begun := h.begun
  starts := h.starts
  elsewhere := h.elsewhere
  heard hor := by
    refine h.heard (hor.imp_right fun hfollowed => ?_)
    simp only [isFollowed, List.any_eq_true] at hfollowed ⊢
    obtain ⟨s, hs, hfollows⟩ := hfollowed
    exact ⟨s, List.mem_of_mem_filter hs, hfollows⟩

/-- The pair and the window may change in both. -/
theorem update (h : Absence missing cycle fewer c c') (tracked : TrackedPair) (window : Window) :
    Absence missing cycle fewer { c with tracked, window } { c' with tracked, window } where
  terms := h.terms
  now := h.now
  tracked := rfl
  window := rfl
  signal := h.signal
  waiters := h.waiters
  seats := h.seats
  missed := h.missed
  begun := h.begun
  starts := h.starts
  elsewhere := h.elsewhere
  heard := h.heard

/-- Time passes in both. -/
theorem advance (h : Absence missing cycle fewer c c') (span : ℕ) :
    Absence missing cycle fewer { c with now := c.now + span }
      { c' with now := c'.now + span } where
  terms := h.terms
  now := congrArg (· + span) h.now
  tracked := h.tracked
  window := h.window
  signal := h.signal
  waiters := h.waiters
  seats := h.seats
  missed := h.missed
  begun := h.begun
  starts := h.starts
  elsewhere := h.elsewhere
  heard := h.heard

/-- A call that leads begins the next refresh in both. -/
theorem lead (h : Absence missing cycle fewer c c') {call : Call} (hother : missing ≠ some call) :
    Absence missing cycle fewer
      { c with
        cohort := ⟨1, some c.cycles.length⟩
        cycles := c.cycles ++ [⟨c.now, .opened⟩]
        seats := c.seats ++ [⟨call, c.cycles.length, .leader, 0⟩] }
      { c' with
        cohort := ⟨1, some c'.cycles.length⟩
        cycles := c'.cycles ++ [⟨c'.now, .opened⟩]
        seats := c'.seats ++ [⟨call, c'.cycles.length, .leader, 0⟩] } where
  terms := h.terms
  now := h.now
  tracked := h.tracked
  window := h.window
  signal := congrArg some h.length_eq
  waiters := by
    have hne : c.cycles.length ≠ cycle := Nat.ne_of_gt h.begun
    simp [hne]
  seats := by simp [h.seats, h.length_eq, hother]
  missed s hs hmissing := by
    rcases List.mem_append.mp hs with hs | hs
    · exact h.missed s hs hmissing
    · rw [List.mem_singleton.mp hs] at hmissing
      exact absurd hmissing hother
  begun := by
    simp only [List.length_append, List.length_singleton]
    exact Nat.lt_succ_of_lt h.begun
  starts := by simp [h.starts, h.now]
  elsewhere k hk := by
    simp only [List.getElem?_append, h.length_eq, h.elsewhere k hk, h.now]
  heard hor := by
    rcases hor with hsignal | hfollowed
    · exact absurd (Option.some.inj hsignal) (Nat.ne_of_gt h.begun)
    · have hfollowed : c'.isFollowed cycle = true := by simpa [isFollowed] using hfollowed
      have hsame := h.heard (Or.inr hfollowed)
      simp only [List.getElem?_append, h.length_eq, hsame, h.now]

/-- A call that follows waits for the refresh in flight in both. -/
theorem follow (h : Absence missing cycle fewer c c') {call : Call} (hother : missing ≠ some call)
    {k : ℕ} (hsignal : c.cohort.signal = some k) :
    Absence missing cycle fewer
      { c with
        cohort := ⟨c.cohort.waiters + 1, some k⟩
        seats := c.seats ++ [⟨call, k, .follower, c.place k⟩] }
      { c' with
        cohort := ⟨c'.cohort.waiters + 1, some k⟩
        seats := c'.seats ++ [⟨call, k, .follower, c'.place k⟩] } where
  terms := h.terms
  now := h.now
  tracked := h.tracked
  window := h.window
  signal := rfl
  waiters := by
    have hwaiters := h.waiters
    rw [hsignal] at hwaiters
    simp only
    omega
  seats := by simp [h.seats, h.place_eq hsignal, hother]
  missed s hs hmissing := by
    rcases List.mem_append.mp hs with hs | hs
    · exact h.missed s hs hmissing
    · rw [List.mem_singleton.mp hs] at hmissing
      exact absurd hmissing hother
  begun := h.begun
  starts := h.starts
  elsewhere := h.elsewhere
  heard hor := by
    -- who follows only now, follows the refresh in flight
    by_cases hk : k = cycle
    · exact h.heard (Or.inl (hk ▸ hsignal))
    · rcases hor with hsame | hfollowed
      · exact absurd (Option.some.inj hsame) hk
      · exact h.heard (Or.inr (by simpa [isFollowed, hk] using hfollowed))

/-- The refresh in flight is finished with one outcome in both. -/
theorem finish (h : Absence missing cycle fewer c c') (hc : Coherent c) (hc' : Coherent c') {k : ℕ}
    (hsignal : c.cohort.signal = some k) (outcome : Outcome) :
    Absence missing cycle fewer (c.finish outcome) (c'.finish outcome) where
  terms := h.terms
  now := h.now
  tracked := h.tracked
  window := h.window
  signal := rfl
  waiters := rfl
  seats := h.seats
  missed := h.missed
  begun := by simpa [Cache.finish, hsignal] using h.begun
  starts := by rw [startedAt_finish, startedAt_finish, h.starts]
  elsewhere j hj := by
    rw [hc'.getElem?_finish (h.signal.trans hsignal), hc.getElem?_finish hsignal,
      h.elsewhere j hj]
    by_cases hk : k = j
    · rw [h.isFollowed_eq (hk ▸ hj)]
    · rw [if_neg hk, if_neg hk]
  heard hor := by
    have hfollowed : c'.isFollowed cycle = true :=
      hor.resolve_left (by simp [Cache.finish, Cohort.idle])
    rw [hc'.getElem?_finish (h.signal.trans hsignal), hc.getElem?_finish hsignal,
      h.heard (Or.inr hfollowed)]
    by_cases hk : k = cycle
    · rw [hk, hfollowed, h.isFollowed_of hfollowed]
    · rw [if_neg hk, if_neg hk]

end Absence

end Cache

end FreshKeys.Refresh
