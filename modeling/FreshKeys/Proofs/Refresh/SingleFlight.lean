import FreshKeys.Proofs.Refresh.Coherence

/-!
# One read at a time

A run shows in its effects which call began which refresh, who followed it, and when it was over.
Counting there gives what a cache keeps in its cohort: the counter is the leader and everybody who
has joined since, whether they still wait or not. The refreshes begin and end in the order of their
numbers, one read of the source to each, and no read begins before the last one is over.
-/

namespace FreshKeys.Refresh

namespace Effect

/-- The number of the refresh that a call began as its leader. -/
def begun? : Effect → Option ℕ
  | .joined _ .leader cycle => some cycle
  | _ => none

/-- The number of the refresh that is over. -/
def ended? : Effect → Option ℕ
  | .finished cycle _ _ => some cycle
  | _ => none

/-- Whether a call joined as a follower. -/
def isFollower : Effect → Bool
  | .joined _ .follower _ => true
  | _ => false

/-- Whether a call joined as a follower of the refresh with a number. -/
def isFollowerOf (cycle : ℕ) : Effect → Bool
  | .joined _ .follower k => k == cycle
  | _ => false

/-- Whether a read is under way after an effect, given whether one was before it; nothing once two
reads have overlapped, or one was over that had not begun. -/
def reading : Option Bool → Effect → Option Bool
  | some false, .readStarted _ => some true
  | _, .readStarted _ => none
  | some true, .finished _ _ _ => some false
  | _, .finished _ _ _ => none
  | underWay, _ => underWay

/-- A refresh that is over is among those that have ended. -/
theorem mem_ended {effects : List Effect} {cycle : ℕ} {outcome : Outcome} {followers : ℕ}
    (h : .finished cycle outcome followers ∈ effects) : cycle ∈ effects.filterMap ended? :=
  List.mem_filterMap.mpr ⟨_, h, rfl⟩

/-- Notes and returns say nothing about who joined, or what was read. -/
def isAside : Effect → Bool
  | .noted _ => true
  | .returned _ _ => true
  | _ => false

/-- A note or a return starts no read. -/
theorem read?_eq_none {e : Effect} (h : e.isAside = true) : e.read? = none := by
  cases e with
  | readStarted path => cases h
  | _ => rfl

/-- A note or a return ends no refresh. -/
theorem ended?_eq_none {e : Effect} (h : e.isAside = true) : e.ended? = none := by
  cases e with
  | finished cycle outcome followers => cases h
  | _ => rfl

end Effect

namespace Cache

/-- That all followers have gone is noted, and nothing else. -/
theorem mem_abandonment {c : Cache} {e : Effect} (he : e ∈ c.abandonment) :
    e = .noted (.followersGone c.cohort.followers) := by
  unfold abandonment at he
  split at he
  · split at he
    · exact List.mem_singleton.mp he
    · cases he
  · cases he

/-- That all followers have gone is an aside. -/
theorem abandonment_asides (c : Cache) : ∀ e ∈ c.abandonment, e.isAside = true := by
  intro e he
  rw [mem_abandonment he]
  rfl

/-- At the end of a refresh that refresh ends, and no other. -/
theorem ended_over (c : Cache) (k : ℕ) (outcome : Outcome) (followers : ℕ) {rest : List Effect}
    (hrest : ∀ e ∈ rest, e.isAside = true) :
    (c.abandonment ++ .finished k outcome followers :: rest).filterMap Effect.ended? = [k] := by
  have hasides {effects : List Effect} (h : ∀ e ∈ effects, e.isAside = true) :
      effects.filterMap Effect.ended? = [] :=
    List.filterMap_eq_nil_iff.mpr fun e he => Effect.ended?_eq_none (h e he)
  simp [hasides c.abandonment_asides, hasides hrest, Effect.ended?]

/-- What follows the end of a refresh is a note, and the leader's return. -/
theorem Ending.asides {c : Cache} {seat : Seat} {event : Event} {outcome : Outcome}
    {tracked : TrackedPair} {window : Window} {rest : List Effect}
    (h : Ending c seat event outcome tracked window rest) : ∀ e ∈ rest, e.isAside = true := by
  cases h <;> simp [Effect.isAside]

/-- Among the effects of a refresh's end, only the end itself is no aside. -/
theorem Ending.eq_finished {c : Cache} {seat : Seat} {event : Event} {outcome : Outcome}
    {tracked : TrackedPair} {window : Window} {rest : List Effect}
    (h : Ending c seat event outcome tracked window rest) {e : Effect}
    (hmem : e ∈ c.abandonment ++ .finished seat.cycle outcome c.cohort.followers :: rest)
    (haside : e.isAside = false) : e = .finished seat.cycle outcome c.cohort.followers := by
  rcases List.mem_append.mp hmem with hnote | hmem
  · simp [c.abandonment_asides e hnote] at haside
  · rcases List.mem_cons.mp hmem with heq | hrest
    · exact heq
    · simp [h.asides e hrest] at haside

/-- A refresh is over with a move of its leader, and with no other. -/
theorem Move.ending_of_finished {c c' : Cache} {event : Event} {new : List Effect}
    (hmove : Move c event c' new) {cycle followers : ℕ} {outcome : Outcome}
    (hmem : .finished cycle outcome followers ∈ new) :
    ∃ seat ∈ c.leaders, seat.cycle = cycle ∧ ∃ tracked window rest,
      Ending c seat event outcome tracked window rest ∧
        c' = (Cache.finish { c with tracked, window } outcome).leave seat.call ∧
        new = c.abandonment ++ .finished cycle outcome c.cohort.followers :: rest := by
  cases hmove with
  | still => cases hmem
  | lead => simp at hmem
  | follow => simp at hmem
  | @finish _ seat _ tracked window rest hseat hleads hending =>
    obtain ⟨rfl, rfl, rfl⟩ := Effect.finished.inj (hending.eq_finished hmem rfl)
    exact ⟨seat, mem_leaders.mpr ⟨hseat, hleads⟩, rfl, tracked, window, rest, hending, rfl, rfl⟩
  | receive => simp at hmem
  | leave => cases hmem
  | advance => cases hmem

/-- What the effects so far say about the cohort of a cache, and about the reads of its source. -/
structure Counted (c : Cache) (effects : List Effect) : Prop where
  begun : effects.filterMap Effect.begun? = List.range c.cycles.length
  ended : effects.filterMap Effect.ended? = List.range (c.cohort.signal.getD c.cycles.length)
  reads : effects.filterMap Effect.read? = List.replicate c.cycles.length c.terms.path
  reading : effects.foldl Effect.reading (some false) = some c.cohort.signal.isSome
  known : ∀ call role cycle, .joined call role cycle ∈ effects → cycle < c.cycles.length
  waiting : ∀ cycle, c.cohort.signal = some cycle →
    c.cohort.waiters = 1 + effects.countP (Effect.isFollowerOf cycle)
  joined : ∀ s ∈ c.leaders, ∃ before since,
    effects = before ++ .joined s.call .leader s.cycle :: since ∧
      c.cohort.waiters = 1 + since.countP Effect.isFollower
  told : ∀ cycle outcome followers, .finished cycle outcome followers ∈ effects →
    followers = effects.countP (Effect.isFollowerOf cycle)

namespace Counted

variable {c : Cache} {effects : List Effect}

/-- Nothing has happened to an empty cache. -/
theorem fresh (terms : Terms) (accessKeyName secretKeyName : String) :
    Counted (.fresh terms accessKeyName secretKeyName) [] where
  begun := rfl
  ended := rfl
  reads := rfl
  reading := rfl
  known _ _ _ h := absurd h List.not_mem_nil
  waiting _ h := by cases h
  joined _ h := absurd h List.not_mem_nil
  told _ _ _ h := absurd h List.not_mem_nil

/-- What is counted depends on the cohort, the refreshes and the leader alone. -/
theorem congr (h : Counted c effects) (c' : Cache) (hcohort : c'.cohort = c.cohort)
    (hcycles : c'.cycles = c.cycles) (hleaders : c'.leaders = c.leaders)
    (hterms : c'.terms = c.terms) : Counted c' effects where
  begun := by rw [hcycles]; exact h.begun
  ended := by rw [hcohort, hcycles]; exact h.ended
  reads := by rw [hcycles, hterms]; exact h.reads
  reading := by rw [hcohort]; exact h.reading
  known := by rw [hcycles]; exact h.known
  waiting := by rw [hcohort]; exact h.waiting
  joined := by rw [hleaders, hcohort]; exact h.joined
  told := h.told

/-- A note or a return changes no count. -/
theorem aside (h : Counted c effects) {e : Effect} (he : e.isAside = true) :
    Counted c (effects ++ [e]) := by
  have hviews : e.begun? = none ∧ e.ended? = none ∧ e.isFollower = false ∧
      (∀ cycle, e.isFollowerOf cycle = false) ∧
        ∀ underWay, Effect.reading underWay e = underWay := by
    cases e with
    | noted note => simp [Effect.begun?, Effect.ended?, Effect.isFollower, Effect.isFollowerOf,
        Effect.reading]
    | returned call outcome => simp [Effect.begun?, Effect.ended?, Effect.isFollower,
        Effect.isFollowerOf, Effect.reading]
    | _ => cases he
  obtain ⟨hbegun, hended, hfollower, hfollowerOf, hreading⟩ := hviews
  have hread := Effect.read?_eq_none he
  refine ⟨?_, ?_, ?_, ?_, ?_, ?_, ?_, ?_⟩
  · simpa [hbegun] using h.begun
  · simpa [hended] using h.ended
  · simpa [hread] using h.reads
  · simpa [hreading] using h.reading
  · intro call role cycle hmem
    refine h.known call role cycle ((List.mem_append.mp hmem).resolve_right fun heq => ?_)
    rw [← List.mem_singleton.mp heq] at he
    cases he
  · simpa [hfollowerOf] using h.waiting
  · intro s hs
    obtain ⟨before, since, hsplit, hwaiters⟩ := h.joined s hs
    exact ⟨before, since ++ [e], by simp [hsplit], by simpa [hfollower] using hwaiters⟩
  · intro cycle outcome followers hmem
    have hold := (List.mem_append.mp hmem).resolve_right fun heq => by
      rw [← List.mem_singleton.mp heq] at he
      cases he
    simpa [hfollowerOf] using h.told cycle outcome followers hold

/-- Notes and returns change no count. -/
theorem asides (h : Counted c effects) {new : List Effect} (hnew : ∀ e ∈ new, e.isAside = true) :
    Counted c (effects ++ new) := by
  induction new generalizing effects with
  | nil => simpa using h
  | cons e rest ih =>
    obtain ⟨he, hrest⟩ := List.forall_mem_cons.mp hnew
    simpa using ih (h.aside he) hrest

/-- The leader is the first that is counted. -/
theorem lead (h : Counted c effects) (hcoherent : Coherent c) {call : Call}
    (hidle : c.cohort.signal = none) :
    Counted { c with
        cohort := ⟨1, some c.cycles.length⟩
        cycles := c.cycles ++ [⟨c.now, .opened⟩]
        seats := c.seats ++ [⟨call, c.cycles.length, .leader, 0⟩] }
      (effects ++ [.joined call .leader c.cycles.length, .noted (.refreshing c.terms.path),
        .readStarted c.terms.path]) := by
  have hcount : ∀ cycle, (effects ++ [Effect.joined call .leader c.cycles.length,
      .noted (.refreshing c.terms.path), .readStarted c.terms.path]).countP
        (Effect.isFollowerOf cycle) = effects.countP (Effect.isFollowerOf cycle) := by
    simp [Effect.isFollowerOf]
  refine ⟨?_, ?_, ?_, ?_, ?_, ?_, ?_, ?_⟩
  · simp [List.filterMap_cons, Effect.begun?, h.begun, List.range_succ]
  · simpa [List.filterMap_cons, Effect.ended?, hidle] using h.ended
  · simp [List.filterMap_cons, Effect.read?, h.reads, List.replicate_succ']
  · simp [h.reading, hidle, Effect.reading]
  · intro k role cycle hmem
    simp only [List.length_append, List.length_singleton]
    rcases List.mem_append.mp hmem with hold | hjoined
    · exact Nat.lt_succ_of_lt (h.known k role cycle hold)
    · simp only [List.mem_cons, Effect.joined.injEq, reduceCtorEq, List.not_mem_nil, or_self,
        or_false] at hjoined
      omega
  · -- nobody can have joined a refresh that begins only now
    rintro cycle ⟨rfl⟩
    rw [hcount, List.countP_eq_zero.mpr]
    intro e he hfollows
    cases e with
    | joined k role cycle =>
      cases role with
      | leader => cases hfollows
      | follower =>
        have hlt := h.known k .follower cycle he
        have heq : cycle = c.cycles.length := by simpa [Effect.isFollowerOf] using hfollows
        omega
    | _ => cases hfollows
  · intro s hs
    have hnone : c.seats.filter (fun s => s.role == .leader) = [] := (hcoherent.idle hidle).2
    rw [leaders, List.filter_append, hnone] at hs
    obtain rfl := List.mem_singleton.mp hs
    exact ⟨effects, [.noted (.refreshing c.terms.path), .readStarted c.terms.path], by simp, by
      simp [Effect.isFollower]⟩
  · intro cycle outcome followers hmem
    rw [hcount]
    exact h.told cycle outcome followers (by simpa using hmem)

/-- A refresh that is over came before the one in flight, or before the next. -/
theorem finished_lt (h : Counted c effects) {cycle : ℕ} {outcome : Outcome} {followers : ℕ}
    (hmem : .finished cycle outcome followers ∈ effects) :
    cycle < c.cohort.signal.getD c.cycles.length := by
  have hended := Effect.mem_ended hmem
  rwa [h.ended, List.mem_range] at hended

/-- A refresh ends once, with one outcome. -/
theorem finished_unique (h : Counted c effects) {cycle : ℕ} {outcome outcome' : Outcome}
    {followers followers' : ℕ} (hmem : .finished cycle outcome followers ∈ effects)
    (hmem' : .finished cycle outcome' followers' ∈ effects) : outcome = outcome' := by
  have hnodup : (effects.filterMap Effect.ended?).Nodup := h.ended ▸ List.nodup_range
  obtain ⟨before, after, rfl⟩ := List.append_of_mem hmem
  have hended : (Effect.finished cycle outcome followers).ended? = some cycle := rfl
  rw [List.filterMap_append, List.filterMap_cons_some hended] at hnodup
  have habsent := (List.nodup_middle.mp hnodup).notMem
  rw [← List.filterMap_append] at habsent
  simp only [List.mem_append, List.mem_cons, Effect.finished.injEq] at hmem'
  rcases hmem' with hold | ⟨-, heq, -⟩ | hnew
  · exact absurd (Effect.mem_ended (List.mem_append_left _ hold)) habsent
  · exact heq.symm
  · exact absurd (Effect.mem_ended (List.mem_append_right _ hnew)) habsent

/-- A follower is counted with the refresh in flight. -/
theorem follow (h : Counted c effects) {call : Call} {cycle : ℕ}
    (hflight : c.InFlight cycle) (hsignal : c.cohort.signal = some cycle) :
    Counted { c with
        cohort := ⟨c.cohort.waiters + 1, some cycle⟩
        seats := c.seats ++ [⟨call, cycle, .follower, c.place cycle⟩] }
      (effects ++ [.joined call .follower cycle]) := by
  refine ⟨?_, ?_, ?_, ?_, ?_, ?_, ?_, ?_⟩
  · simpa [List.filterMap_cons, Effect.begun?] using h.begun
  · simpa [List.filterMap_cons, Effect.ended?, hsignal] using h.ended
  · simpa [List.filterMap_cons, Effect.read?] using h.reads
  · simp [h.reading, hsignal, Effect.reading]
  · intro k role number hmem
    rcases List.mem_append.mp hmem with hold | hjoined
    · exact h.known k role number hold
    · simp only [List.mem_singleton, Effect.joined.injEq] at hjoined
      rw [hjoined.2.2]
      exact Nat.lt_of_succ_le (Nat.le_of_eq hflight.last)
  · rintro _ ⟨rfl⟩
    have := h.waiting cycle hsignal
    simp [Effect.isFollowerOf]
    omega
  · intro s hs
    obtain ⟨before, since, hsplit, hwaiters⟩ := h.joined s (by simpa [leaders] using hs)
    refine ⟨before, since ++ [.joined call .follower cycle], by simp [hsplit], ?_⟩
    simp [Effect.isFollower]
    omega
  · -- a refresh that is over is not the one in flight
    intro number outcome followers hmem
    have hmem : .finished number outcome followers ∈ effects := by simpa using hmem
    have hne : cycle ≠ number := by
      have := h.finished_lt hmem
      rw [hsignal, Option.getD_some] at this
      omega
    rw [h.told number outcome followers hmem]
    simp [Effect.isFollowerOf, hne]

/-- The end of a refresh tells how many have followed it. -/
theorem finished (h : Counted c effects) (hcoherent : Coherent c) {seat : Seat}
    (hseat : seat ∈ c.seats) (hleads : seat.role = .leader) (outcome : Outcome) :
    Counted ((c.finish outcome).leave seat.call)
      (effects ++ [.finished seat.cycle outcome c.cohort.followers]) := by
  obtain ⟨hsignal, -⟩ := hcoherent.of_leader hseat hleads
  have hlast := (hcoherent.busy _ hsignal).last
  have hlength : ((c.finish outcome).leave seat.call).cycles.length = c.cycles.length := by
    simp [Cache.leave, Cache.finish, hsignal]
  refine ⟨?_, ?_, ?_, ?_, ?_, ?_, ?_, ?_⟩
  · rw [hlength]
    simpa [List.filterMap_cons, Effect.begun?] using h.begun
  · rw [hlength, ← hlast]
    simp [Effect.ended?, h.ended, hsignal, Cache.leave, Cache.finish, Cohort.idle, List.range_succ]
  · rw [hlength]
    simpa [List.filterMap_cons, Effect.read?, Cache.leave, Cache.finish] using h.reads
  · simp [h.reading, hsignal, Effect.reading, Cache.leave, Cache.finish, Cohort.idle]
  · intro call role cycle hmem
    rw [hlength]
    exact h.known call role cycle (by simpa using hmem)
  · exact fun _ hbusy => absurd hbusy (by simp [Cache.leave, Cache.finish, Cohort.idle])
  · rw [hcoherent.leaders_finish hseat hleads outcome]
    exact fun _ hs => absurd hs List.not_mem_nil
  · intro cycle o followers hmem
    have hcount : (effects ++ [Effect.finished seat.cycle outcome c.cohort.followers]).countP
        (Effect.isFollowerOf cycle) = effects.countP (Effect.isFollowerOf cycle) := by
      simp [Effect.isFollowerOf]
    rw [hcount]
    rcases List.mem_append.mp hmem with hold | hnew
    · exact h.told cycle o followers hold
    · obtain ⟨rfl, -, rfl⟩ := by simpa using hnew
      have := h.waiting _ hsignal
      simp only [Cohort.followers]
      omega

/-- Every move of a coherent cache adds to the effects what it changes in the counts. -/
theorem move (h : Counted c effects) (hcoherent : Coherent c) {event : Event} {c' : Cache}
    {new : List Effect} (hmove : Move c event c' new) : Counted c' (effects ++ new) := by
  cases hmove with
  | still => simpa using h
  | lead call hfree hidle => exact h.lead hcoherent (hcoherent.signal_eq_none hidle)
  | follow call cycle hfree hsignal => exact h.follow (hcoherent.busy cycle hsignal) hsignal
  | @finish _ seat outcome tracked window rest hseat hleads hending =>
    have hnoted := (h.asides c.abandonment_asides).congr { c with tracked, window } rfl rfl rfl rfl
    have hover := hnoted.finished (hcoherent.update c.now tracked window) hseat hleads outcome
    simpa using hover.asides hending.asides
  | @receive seat receipt hseat hfollows =>
    have hreturned : (Effect.returned seat.call receipt.outcome).isAside = true := rfl
    exact (h.aside hreturned).congr _ rfl rfl (hcoherent.leaders_leave hseat hfollows) rfl
  | @leave seat hseat hfollows =>
    have hleft := h.congr (c.leave seat.call) rfl rfl (hcoherent.leaders_leave hseat hfollows) rfl
    simpa using hleft
  | advance span => simpa using h.congr { c with now := c.now + span } rfl rfl rfl rfl

end Counted

/-- A run counts right, whatever happens in it. -/
theorem counted_run (terms : Terms) (accessKeyName secretKeyName : String) (events : List Event) :
    Counted ((fresh terms accessKeyName secretKeyName).run events).1
      ((fresh terms accessKeyName secretKeyName).run events).2 :=
  coherent_run_induction (fun _ hcoherent hmove h => h.move hcoherent hmove) (Coherent.fresh _ _ _)
    (Counted.fresh _ _ _) events

/-- A cache makes one refresh at a time, and its cohort says how many take part in it. -/
structure SingleFlight (c : Cache) (effects : List Effect) : Prop where
  /-- At most one call leads, with its read of the source under way. -/
  one_leader : c.leaders.length ≤ 1
  /-- The counter, the channel and the leader come and go together. -/
  waiters_iff : 0 < c.cohort.waiters ↔ c.cohort.signal.isSome
  signal_iff : c.cohort.signal.isSome ↔ c.leaders.length = 1
  /-- The counter is the leader with all who have followed since it joined, given up or not. -/
  counted : ∀ s ∈ c.leaders, ∃ before since,
    effects = before ++ .joined s.call .leader s.cycle :: since ∧
      c.cohort.waiters = 1 + since.countP Effect.isFollower
  /-- No two reads have overlapped, and one is under way exactly when there is a leader. -/
  reading : effects.foldl Effect.reading (some false) = some (decide (c.leaders.length = 1))
  /-- The refreshes have begun in order, each with a leader and a read of its own. -/
  begun : effects.filterMap Effect.begun? = List.range c.cycles.length
  reads : (effects.filterMap Effect.read?).length = c.cycles.length
  /-- The refreshes have ended in order, each once; only the one that is led has not. -/
  ended : effects.filterMap Effect.ended? = List.range (c.cycles.length - c.leaders.length)
  /-- The end of a refresh has told how many joined it as followers. -/
  told : ∀ cycle outcome followers, .finished cycle outcome followers ∈ effects →
    followers = effects.countP (Effect.isFollowerOf cycle)
  /-- A call leads when it finds nobody waiting, and follows the last refresh otherwise. -/
  joins : ∀ call, c.seat? call = none →
    (c.step (.join call)).2 =
      if c.cohort.waiters = 0 then
        [.joined call .leader c.cycles.length, .noted (.refreshing c.terms.path),
          .readStarted c.terms.path]
      else [.joined call .follower (c.cycles.length - 1)]

/-- There is one leader while a refresh is in flight, and none otherwise. -/
theorem Coherent.leaders_length {c : Cache} (h : Coherent c) :
    c.leaders.length = if c.cohort.signal.isSome then 1 else 0 := by
  cases hsignal : c.cohort.signal with
  | none => simp [(h.idle hsignal).2]
  | some cycle =>
    obtain ⟨call, hled⟩ := (h.busy cycle hsignal).led
    simp [hled]

/-- The counts of a coherent cache are those of single flight. -/
theorem Counted.singleFlight {c : Cache} {effects : List Effect} (h : Counted c effects)
    (hcoherent : Coherent c) : SingleFlight c effects := by
  have hleaders := hcoherent.leaders_length
  have hbusy : c.cohort.signal.isSome = decide (c.leaders.length = 1) := by
    rw [hleaders]
    cases c.cohort.signal.isSome <;> rfl
  have hover : c.cohort.signal.getD c.cycles.length = c.cycles.length - c.leaders.length := by
    rw [hleaders]
    cases hsignal : c.cohort.signal with
    | none => simp
    | some cycle =>
      have := (hcoherent.busy cycle hsignal).last
      simp
      omega
  exact
    { one_leader := by rw [hleaders]; split <;> decide
      waiters_iff := hcoherent.waiters_pos_iff
      signal_iff := by rw [hbusy, decide_eq_true_iff]
      counted := h.joined
      reading := by rw [← hbusy]; exact h.reading
      begun := h.begun
      reads := by rw [h.reads, List.length_replicate]
      ended := by rw [← hover]; exact h.ended
      told := h.told
      joins := fun _ hfree => hcoherent.join_effects hfree }

/-- Every run is one of single flight. -/
theorem singleFlight_run (terms : Terms) (accessKeyName secretKeyName : String)
    (events : List Event) :
    SingleFlight ((fresh terms accessKeyName secretKeyName).run events).1
      ((fresh terms accessKeyName secretKeyName).run events).2 := by
  have hcounted := counted_run terms accessKeyName secretKeyName events
  exact hcounted.singleFlight ((Coherent.fresh _ _ _).run events)

end Cache

end FreshKeys.Refresh
