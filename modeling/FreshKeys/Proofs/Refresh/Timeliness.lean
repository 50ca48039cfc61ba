import FreshKeys.Proofs.Refresh.Settling
import FreshKeys.Proofs.Refresh.Succession

/-!
# Sessions tell in time

A session resumes its tasks in a fixed order, and a step of its script brings one reply at most for
a read that is under way. So whoever follows a refresh is told what it came to before another one
ends, and the pairs that reach a handle come from refreshes in their order.
-/

namespace FreshKeys.Refresh

namespace Cache

variable {c : Cache} {call : Call} {seat : Seat} {event : Event}

/-- A call that joins begins the next refresh, or follows the one in flight. -/
theorem Coherent.join_cases (hcoherent : Coherent c) (hfree : c.seat? call = none) :
    (c.cohort.signal = none ∧ (c.step (.join call)).1 = { c with
        cohort := ⟨1, some c.cycles.length⟩
        cycles := c.cycles ++ [⟨c.now, .opened⟩]
        seats := c.seats ++ [⟨call, c.cycles.length, .leader, 0⟩] }) ∨
      ∃ cycle, c.cohort.signal = some cycle ∧ (c.step (.join call)).1 = { c with
        cohort := ⟨c.cohort.waiters + 1, some cycle⟩
        seats := c.seats ++ [⟨call, cycle, .follower, c.place cycle⟩] } := by
  simp only [Cache.step, hfree, Cache.join]
  rcases cohort_join_cases c.cohort c.cycles.length with ⟨hjoin, hidle⟩ | ⟨cycle, hjoin, hsignal, -⟩
  · exact Or.inl ⟨hcoherent.signal_eq_none hidle, by simp [hjoin, place_length]⟩
  · exact Or.inr ⟨cycle, hsignal, by simp [hjoin]⟩

/-- A call that joins waits for the refresh in flight. -/
theorem Coherent.told_join (hcoherent : Coherent c) (hfree : c.seat? call = none) (htold : c.Told) :
    (c.step (.join call)).1.Told := by
  intro s hs
  rcases hcoherent.join_cases hfree with ⟨hsignal, hjoin⟩ | ⟨cycle, hsignal, hjoin⟩
  · rw [hjoin] at hs ⊢
    rcases List.mem_append.mp hs with hs | hs
    · have hnone := htold s hs
      simp [hsignal] at hnone
    · rw [List.mem_singleton.mp hs]
  · rw [hjoin] at hs ⊢
    rcases List.mem_append.mp hs with hs | hs
    · exact hsignal.symm.trans (htold s hs)
    · rw [List.mem_singleton.mp hs]

/-- The time of the refresh in flight is not up because a call joins. -/
theorem Coherent.isDue_join (hcoherent : Coherent c) (hfree : c.seat? call = none)
    (hlasting : 0 < c.terms.fetchTimeout)
    (htime : ∀ cycle, c.cohort.signal = some cycle → c.isDue cycle = false) (cycle : ℕ)
    (hsignal : (c.step (.join call)).1.cohort.signal = some cycle) :
    (c.step (.join call)).1.isDue cycle = false := by
  rcases hcoherent.join_cases hfree with ⟨-, hjoin⟩ | ⟨flight, hflight, hjoin⟩
  · rw [hjoin] at hsignal ⊢
    obtain rfl := Option.some.inj hsignal
    have hbegun : (c.cycles ++ [⟨c.now, .opened⟩])[c.cycles.length]? = some ⟨c.now, .opened⟩ := by
      simp
    rw [isDue, hbegun, Option.any_some, decide_eq_false_iff_not]
    simp only
    omega
  · rw [hjoin] at hsignal ⊢
    exact htime cycle (hflight.trans hsignal)

/-- A call that joins ends no refresh. -/
theorem Coherent.not_ends_join (hcoherent : Coherent c) (hfree : c.seat? call = none) :
    ¬ Ends (c.step (.join call)).2 := by
  rintro ⟨cycle, outcome, followers, hmem⟩
  rw [hcoherent.join_effects hfree] at hmem
  split at hmem <;> simp at hmem

/-- A call that is resumed ends the refresh that it leads, or has been told of the one that it
followed. -/
theorem Coherent.resume_cases (hcoherent : Coherent c) (hseat : seat ∈ c.seats)
    {queue rest : List Reply} (hresumption : Resumption c seat queue event rest) :
    (seat.role = .leader ∧ (c.step event).1.cohort.signal = none) ∨
      (rest = queue ∧ c.cohort.signal ≠ some seat.cycle ∧
        (c.step event).1 = c.leave seat.call ∧ ¬ Ends (c.step event).2) := by
  have hfound := hcoherent.seatAs?_eq hseat
  cases hresumption with
  | answer reply queue hleads =>
    rw [hleads] at hfound
    refine Or.inl ⟨hleads, ?_⟩
    simp [Cache.step, hfound, commit, Cache.leave, Cache.finish, Cohort.idle]
  | timeOut hleads hdue =>
    rw [hleads] at hfound
    refine Or.inl ⟨hleads, ?_⟩
    simp [Cache.step, hfound, hdue, commit, Cache.leave, Cache.finish, Cohort.idle]
  | wake queue hfollows hreceipt =>
    rw [hfollows] at hfound
    refine Or.inr ⟨rfl, hcoherent.late_of_receipt hseat hfollows hreceipt, ?_⟩
    simp [Cache.step, hfound, hreceipt, Ends]

/-- A call that is given up ends the refresh that it leads, or just leaves. -/
theorem Coherent.drop_cases (hcoherent : Coherent c) (hseat : seat ∈ c.seats) :
    (c.step (.drop seat.call)).1.cohort.signal = none ∨
      (c.step (.drop seat.call)).1 = c.leave seat.call := by
  have hfound := hcoherent.seat?_eq hseat
  cases hrole : seat.role with
  | leader =>
    refine Or.inl ?_
    simp [Cache.step, hfound, hrole, cancel, Cache.leave, Cache.finish, Cohort.idle]
  | follower => exact Or.inr (by simp [Cache.step, hfound, hrole])

/-- A call that leaves does not make anybody wait longer. -/
theorem Told.leave (h : c.Told) (call : Call) : (c.leave call).Told :=
  fun s hs => h s (List.mem_of_mem_filter hs)

end Cache

/-- A call that is resumed has no more effects than its cache. -/
theorem Resumption.step_effects {p : Provider} {seat : Seat} {queue rest : List Reply}
    {event : Event} (h : Resumption p.cache seat queue event rest) :
    (p.step (.refresh event)).2 = (p.cache.step event).2 := by
  cases h <;> rfl

namespace Session

variable {s next : Session} {cursor index handle : ℕ} {task : Task} {effects : List Effect}

/-- The refreshes whose pairs reach a handle in turns, one after the other. -/
def reaching (s : Session) (handle : ℕ) : List Turn → List ℕ
  | [] => []
  | turn :: rest =>
    (s.turn turn).2.filterMap (s.provider.cache.reaching? handle) ++
      (s.turn turn).1.reaching handle rest

/-- No refresh ends in a turn while somebody has yet to be told of an earlier one. -/
def TellsInTime (s : Session) : List Turn → Prop
  | [] => True
  | turn :: rest =>
    (Cache.Ends (s.turn turn).2 → s.provider.cache.Told) ∧ (s.turn turn).1.TellsInTime rest

/-- The task at the cursor goes first, if it can be resumed. -/
theorem eq_of_moveFrom? {result : Session × List Effect} (hmove : s.move? cursor = some result)
    (h : s.moveFrom? cursor = some (next, effects, index)) : index = cursor := by
  have hlt : cursor < s.tasks.length := by
    obtain ⟨task, hfound, -⟩ := move?_cases hmove
    exact (List.getElem?_eq_some_iff.mp hfound).1
  have horder : order s.tasks.length cursor =
      cursor :: ((List.range s.tasks.length).drop (cursor + 1) ++
        (List.range s.tasks.length).take cursor) := by
    have hdrop := List.drop_eq_getElem_cons (l := List.range s.tasks.length) (i := cursor)
      (by simpa using hlt)
    rw [order, hdrop, List.getElem_range, List.cons_append]
  rw [moveFrom?, horder, List.findSome?_cons, hmove] at h
  simpa using (congrArg (fun r => r.map fun found => found.2.2) h).symm

/-- When everybody is told in time, the pairs that reach a handle come from refreshes in order. -/
theorem reaching_sorted_of_ascending {reached : List ℕ} (h : s.provider.cache.Ascending reached)
    (list : List Turn) (hintime : s.TellsInTime list) (handle : ℕ) :
    (reached ++ s.reaching handle list).Pairwise (· ≤ ·) := by
  induction list generalizing s reached with
  | nil =>
    rw [reaching, List.append_nil]
    exact h.sorted
  | cons turn rest ih =>
    obtain ⟨htold, hrest⟩ := hintime
    rw [reaching, ← List.append_assoc]
    refine ih ?_ hrest
    rcases s.turn_provider turn with ⟨hprovider, heffects⟩ | ⟨event, hprovider, heffects⟩
    · rw [hprovider, heffects, List.filterMap_nil, List.append_nil]
      exact h
    · rw [heffects] at htold ⊢
      rw [hprovider]
      exact Provider.ascending_step h rfl htold handle

/-- Turns tell in time when their first part does, and their second part from there. -/
theorem tellsInTime_append (s : Session) (first second : List Turn) :
    s.TellsInTime (first ++ second) ↔
      s.TellsInTime first ∧ (s.turns first).1.TellsInTime second := by
  induction first generalizing s with
  | nil => simp [TellsInTime, turns]
  | cons turn rest ih => simp [TellsInTime, turns, ih, and_assoc]

/-- What every turn keeps: calls, channels and tasks agree, and a read has some time. -/
structure Orderly (s : Session) : Prop where
  coherent : Cache.Coherent s.provider.cache
  seating : Seating s.provider.cache.seats s.tasks
  lasting : 0 < s.provider.cache.terms.fetchTimeout

/-- Every turn keeps a session orderly. -/
theorem Orderly.turn (h : Orderly s) (turn : Turn) : Orderly (s.turn turn).1 := by
  obtain ⟨happened, asides, moved, hmove, -⟩ := s.turn_move turn
  exact ⟨h.coherent.move hmove, seating_turn h.coherent h.seating turn,
    hmove.terms_eq.1 ▸ h.lasting⟩

/-- How a session stands while it settles. Who has yet to be told of a refresh is told before
another one can end; and while several replies are queued, nobody waits but the leader at the
cursor, who takes one of them before anybody can join. -/
structure Timely (s : Session) (cursor : ℕ) : Prop extends Orderly s where
  untold : ¬ s.provider.cache.Told → s.queue = [] ∧
    ∀ cycle, s.provider.cache.cohort.signal = some cycle → s.provider.cache.isDue cycle = false
  queued : 1 < s.queue.length → ∀ seat ∈ s.provider.cache.seats, seat.call.caller = cursor

namespace Timely

/-- A session is timely when everybody has been told, and nobody waits while replies are queued. -/
theorem of_told (h : Orderly s) (htold : s.provider.cache.Told)
    (hempty : 1 < s.queue.length → s.provider.cache.seats = []) (cursor : ℕ) :
    Timely s cursor := by
  refine ⟨h, fun huntold => absurd htold huntold, fun hmore seat hseat => ?_⟩
  rw [hempty hmore] at hseat
  cases hseat

/-- Everybody has been told when a reply is queued. -/
theorem told (h : Timely s cursor) (hqueue : s.queue ≠ []) : s.provider.cache.Told :=
  Classical.byContradiction fun huntold => hqueue (h.untold huntold).1

/-- Two seats at the cursor are one. -/
theorem seat_unique (h : Timely s cursor) (hqueue : 1 < s.queue.length) {seat other : Seat}
    (hseat : seat ∈ s.provider.cache.seats) (hother : other ∈ s.provider.cache.seats) :
    other.call = seat.call := by
  obtain ⟨task, hfound, -, hcall⟩ := h.seating.occupied seat hseat
  have hsame := (h.queued hqueue other hother).trans (h.queued hqueue seat hseat).symm
  exact ((h.seating.caller_eq_iff hfound hother).mp hsame).trans hcall.symm

/-- While several replies are queued, the task at the cursor can be resumed if anybody waits. -/
theorem waiting_cursor (h : Timely s cursor) (hqueue : 1 < s.queue.length) {seat : Seat}
    (hseat : seat ∈ s.provider.cache.seats) :
    ∃ task result, s.tasks[cursor]? = some task ∧ task.waiting = true ∧
      s.move? cursor = some result := by
  have hne : s.queue ≠ [] := by
    rintro hnil
    simp [hnil] at hqueue
  obtain ⟨call, hled⟩ := (h.coherent.busy _ (h.told hne seat hseat)).led
  have hleader := Cache.mem_leaders.mp (hled ▸ List.mem_singleton.mpr rfl)
  obtain ⟨task, hfound, hwaiting, hcall⟩ := h.seating.occupied _ hleader.1
  obtain ⟨reply, rest, hreplies⟩ := List.exists_cons_of_ne_nil hne
  have hresume := resume?_eq_some_iff.mpr ⟨_, _, rest, hcall ▸ h.coherent.seat?_eq hleader.1,
    hreplies ▸ Resumption.answer reply rest hleader.2, rfl⟩
  rw [h.queued hqueue _ hleader.1] at hfound hresume
  exact ⟨task, _, hfound, hwaiting, by simpa [move?, hfound, hwaiting] using hresume⟩

/-- While several replies are queued, nobody waits when a task begins a call. -/
theorem seats_of_idle (h : Timely s cursor) (hqueue : 1 < s.queue.length)
    (hmoved : s.moveFrom? cursor = some (next, effects, index))
    (hfound : s.tasks[index]? = some task) (hidle : task.waiting = false) :
    s.provider.cache.seats = [] := by
  rw [List.eq_nil_iff_forall_not_mem]
  intro seat hseat
  obtain ⟨waits, result, hwaits, hwaiting, hmove⟩ := h.waiting_cursor hqueue hseat
  obtain rfl := eq_of_moveFrom? hmove hmoved
  rw [← Option.some.inj (hfound.symm.trans hwaits), hidle] at hwaiting
  cases hwaiting

/-- A call that begins leaves a session timely, and ends no refresh. -/
theorem begin (h : Timely s cursor)
    (hmoved : s.moveFrom? cursor = some (next, effects, index))
    (hfound : s.tasks[index]? = some task) (hidle : task.waiting = false)
    (hbegin : (next, effects) = s.beginCall index task) (hnext : Orderly next) :
    ¬ Cache.Ends effects ∧ Timely next index := by
  have hseats := fun hqueue => h.seats_of_idle hqueue hmoved hfound hidle
  have hqueue : next.queue = s.queue := congrArg (fun r => r.1.queue) hbegin
  obtain ⟨hfree, ⟨handle, pair, -, -, hhand⟩ | ⟨notes, -, hcache, heffects⟩⟩ :=
    beginCall_cases h.seating hfound hidle
  · obtain ⟨rfl, rfl⟩ := Prod.mk.inj (hbegin.trans hhand)
    refine ⟨by simp [Cache.Ends], hnext, h.untold, ?_⟩
    intro hmore seat hseat
    rw [hseats hmore] at hseat
    cases hseat
  · rw [← hbegin] at hcache heffects
    simp only at hcache heffects
    refine ⟨?_, hnext, fun huntold => ?_, fun hmore seat hseat => ?_⟩
    · rintro ⟨cycle, outcome, followers, hmem⟩
      rw [heffects, List.mem_append] at hmem
      rcases hmem with hnote | hmem
      · simp at hnote
      · exact h.coherent.not_ends_join hfree ⟨cycle, outcome, followers, hmem⟩
    · -- who joins waits for the refresh in flight, so whoever is untold was so before
      rw [hcache] at huntold ⊢
      rw [hqueue]
      obtain ⟨hnone, htime⟩ := h.untold fun htold => huntold (h.coherent.told_join hfree htold)
      exact ⟨hnone, h.coherent.isDue_join hfree h.lasting htime⟩
    · obtain ⟨joined, hcall, hjoin, -⟩ := s.provider.cache.join_seats hfree
      rw [hcache, hjoin, hseats (hqueue ▸ hmore), List.nil_append, List.mem_singleton] at hseat
      rw [hseat, hcall]
      rfl

/-- A leader that is resumed ends its refresh when everybody has been told of the one before. -/
theorem told_of_leader (h : Timely s cursor) {seat : Seat} {event : Event} {queue : List Reply}
    (hseat : seat ∈ s.provider.cache.seats) (hleads : seat.role = .leader)
    (hresumption : Resumption s.provider.cache seat s.queue event queue) :
    s.provider.cache.Told := by
  generalize hqueue : s.queue = replies at hresumption
  cases hresumption with
  | answer reply queue _ => exact h.told (by simp [hqueue])
  | timeOut _ hdue =>
    refine Classical.byContradiction fun huntold => ?_
    have htime := (h.untold huntold).2 _ (h.coherent.of_leader hseat hleads).1
    simp [htime] at hdue
  | wake queue hfollows _ => simp [hleads] at hfollows

/-- Nobody is left after a leader that several replies were queued for. -/
theorem seats_of_leader (h : Timely s cursor) {seat : Seat} {event : Event} {queue : List Reply}
    (hseat : seat ∈ s.provider.cache.seats) (hleads : seat.role = .leader)
    (hresumption : Resumption s.provider.cache seat s.queue event queue) (hmore : queue ≠ []) :
    (s.provider.cache.step event).1.seats = [] := by
  rw [h.coherent.seats_resume hseat hresumption, List.eq_nil_iff_forall_not_mem]
  intro other hother
  obtain ⟨hother, hcall⟩ := List.mem_filter.mp hother
  generalize hqueue : s.queue = replies at hresumption
  cases hresumption with
  | answer reply queue _ =>
    have hmany : 1 < s.queue.length := by
      have := List.length_pos_of_ne_nil hmore
      simp only [hqueue, List.length_cons]
      omega
    simp [h.seat_unique hmany hseat hother] at hcall
  | timeOut _ _ => exact hmore rfl
  | wake queue hfollows _ => simp [hleads] at hfollows

/-- A call that is resumed leaves a session timely; if it ends a refresh, everybody is told. -/
theorem resume (h : Timely s cursor) {seat : Seat} {event : Event} {queue : List Reply}
    (hseat : seat ∈ s.provider.cache.seats)
    (hresumption : Resumption s.provider.cache seat s.queue event queue)
    (hcache : next.provider.cache = (s.provider.cache.step event).1) (hqueue : next.queue = queue)
    (heffects : effects = (s.provider.cache.step event).2) (hnext : Orderly next) :
    (Cache.Ends effects → s.provider.cache.Told) ∧ Timely next index := by
  rcases h.coherent.resume_cases hseat hresumption with
    ⟨hleads, hsignal⟩ | ⟨hsame, hlate, hleft, hends⟩
  · have hempty := h.seats_of_leader hseat hleads hresumption
    rw [← hcache] at hempty hsignal
    -- its followers have yet to be told; as there are some, the reply was the last one queued
    refine ⟨fun _ => h.told_of_leader hseat hleads hresumption, hnext,
      fun huntold => ⟨?_, ?_⟩, fun hmore other hother => ?_⟩
    · refine Classical.byContradiction fun hne => huntold fun other hother => ?_
      rw [hempty (hqueue ▸ hne)] at hother
      cases hother
    · intro cycle hbusy
      rw [hsignal] at hbusy
      cases hbusy
    · rw [hempty] at hother
      · cases hother
      · rintro rfl
        simp [hqueue] at hmore
  · have huntold : ¬ s.provider.cache.Told := fun htold => hlate (htold seat hseat)
    obtain ⟨hnone, htime⟩ := h.untold huntold
    rw [← hsame, ← hqueue] at hnone
    refine ⟨fun hended => absurd (heffects ▸ hended) hends, hnext, fun _ => ⟨hnone, ?_⟩,
      fun hmore => ?_⟩
    · rw [hcache, hleft]
      exact htime
    · simp [hnone] at hmore

/-- Whoever is resumed, the session stays timely, and a refresh ends when everybody is told. -/
theorem turn (h : Timely s cursor) (hmoved : s.moveFrom? cursor = some (next, effects, index)) :
    (Cache.Ends effects → s.provider.cache.Told) ∧ Timely next index := by
  have hmove := move?_of_moveFrom? hmoved
  have hnext : Orderly next := by
    simpa [Session.turn, hmove] using h.toOrderly.turn (.resume index)
  obtain ⟨task, hfound, ⟨-, hresume⟩ | ⟨hidle, -, hbegin⟩⟩ := move?_cases hmove
  · obtain ⟨seat, event, queue, hseat, hresumption, hhappen⟩ := resume?_eq_some_iff.mp hresume
    obtain ⟨rfl, rfl⟩ := Prod.mk.inj hhappen
    exact h.resume (Cache.mem_of_seat? hseat).1 hresumption hresumption.step_cache rfl
      hresumption.step_effects hnext
  · obtain ⟨hends, hnext⟩ := h.begin hmoved hfound hidle hbegin hnext
    exact ⟨fun hended => absurd hended hends, hnext⟩

end Timely

/-- A session that settles tells in time, and stays timely. -/
theorem settling_inTime (h : Timely s cursor) :
    s.TellsInTime (s.settling cursor) ∧ ∃ last, Timely (s.settle cursor).1 last := by
  induction s, cursor using settle.induct with
  | case1 s cursor hrest =>
    rw [settle_eq, settling_eq, hrest]
    exact ⟨trivial, cursor, h⟩
  | case2 s cursor next effects index hmoved _ _ _ _ ih =>
    obtain ⟨htold, hnext⟩ := h.turn hmoved
    obtain ⟨hintime, hlast⟩ := ih hnext
    rw [settle_eq, settling_eq, hmoved]
    refine ⟨⟨?_, ?_⟩, hlast⟩ <;> simpa [Session.turn, move?_of_moveFrom? hmoved]

namespace Quiet

/-- In a quiet session everybody has been told. -/
theorem told (hquiet : s.Quiet) (h : Orderly s) : s.provider.cache.Told :=
  fun _ hseat => hquiet.signal_eq h.coherent h.seating hseat

/-- In a quiet session nobody waits while a reply is queued. -/
theorem seats_of_queue (hquiet : s.Quiet) (h : Orderly s) (hqueue : s.queue ≠ []) :
    s.provider.cache.seats = [] := by
  rw [List.eq_nil_iff_forall_not_mem]
  exact fun seat hseat =>
    hqueue (hquiet.of_signal h.coherent h.seating (hquiet.told h seat hseat)).1

/-- A task that is given up leaves a quiet session timely. -/
theorem timely_abandon (hquiet : s.Quiet) (h : Orderly s) (hfound : s.tasks[index]? = some task)
    (hnext : Orderly (s.abandon index task).1) : Timely (s.abandon index task).1 0 := by
  have htold := hquiet.told h
  cases hwaiting : task.waiting with
  | false =>
    have hsame : (s.abandon index task).1 =
        { s with tasks := s.tasks.set index task.abandoned } := by
      simp [abandon, hwaiting]
    rw [hsame] at hnext ⊢
    refine .of_told hnext htold (fun hmore => hquiet.seats_of_queue h ?_) 0
    exact List.ne_nil_of_length_pos (Nat.zero_lt_of_lt hmore)
  | true =>
    obtain ⟨seat, hseat, hcall⟩ := h.seating.seated index task hfound hwaiting
    have hcache : (s.abandon index task).1.provider.cache =
        (s.provider.cache.step (.drop seat.call)).1 := by
      simp only [abandon, hwaiting, if_true, change, hcall]
      rfl
    -- somebody waits, so no reply is queued
    have hqueue : (s.abandon index task).1.queue = [] := by
      have hsame : (s.abandon index task).1.queue = s.queue := by
        simp only [abandon, hwaiting, if_true, change]
      rw [hsame]
      refine Classical.byContradiction fun hne => ?_
      rw [hquiet.seats_of_queue h hne] at hseat
      cases hseat
    rcases h.coherent.drop_cases hseat with hsignal | hleft
    · rw [← hcache] at hsignal
      refine ⟨hnext, fun _ => ⟨hqueue, fun cycle hbusy => ?_⟩, fun hmore => ?_⟩
      · rw [hsignal] at hbusy
        cases hbusy
      · simp [hqueue] at hmore
    · refine .of_told hnext ?_ (fun hmore => by simp [hqueue] at hmore) 0
      rw [hcache, hleft]
      exact htold.leave seat.call

/-- A step of the script leaves a quiet session timely. -/
theorem timely_apply (hquiet : s.Quiet) (h : Orderly s) (step : Step) :
    Timely (s.apply step).1 0 := by
  have htold := hquiet.told h
  have hnext : Orderly (s.apply step).1 := h.turn (.script step)
  have hnobody : 1 < s.queue.length → s.provider.cache.seats = [] := fun hmore =>
    hquiet.seats_of_queue h (List.ne_nil_of_length_pos (Nat.zero_lt_of_lt hmore))
  cases step with
  | reply reply =>
    refine .of_told hnext htold (fun hmore => hquiet.seats_of_queue h fun hnil => ?_) 0
    have hone : (s.apply (.reply reply)).1.queue.length = 1 := by simp [Session.apply, hnil]
    rw [hone] at hmore
    exact Nat.lt_irrefl 1 hmore
  | abort id =>
    cases hfound : s.tasks[s.tasks.findIdx fun task => task.id == id]? with
    | none =>
      have hsame : s.apply (.abort id) = (s, []) := by simp only [Session.apply, hfound]
      rw [hsame]
      exact .of_told h htold hnobody 0
    | some task =>
      have hsame : s.apply (.abort id) =
          s.abandon (s.tasks.findIdx fun task => task.id == id) task := by
        simp only [Session.apply, hfound]
      rw [hsame] at hnext ⊢
      exact hquiet.timely_abandon h hfound hnext
  | _ => exact .of_told hnext htold hnobody 0

end Quiet

/-- A session that begins quiet tells in time, whatever its script. -/
theorem schedule_inTime (hquiet : s.Quiet) (h : Orderly s) (steps : List Step) :
    s.TellsInTime (s.schedule steps) := by
  induction steps generalizing s with
  | nil => trivial
  | cons step rest ih =>
    obtain ⟨hintime, last, hlast⟩ := settling_inTime (hquiet.timely_apply h step)
    have hrest : (s.step step).1.TellsInTime ((s.step step).1.schedule rest) :=
      ih (settle_quiet (s.apply step).1 0) hlast.toOrderly
    have hturns : ((s.turn (.script step)).1.turns ((s.apply step).1.settling 0)).1 =
        (s.step step).1 := by
      change ((s.apply step).1.turns _).1 = _
      rw [← settle_eq_turns]
      rfl
    refine ⟨fun _ => hquiet.told h, (tellsInTime_append _ _ _).mpr ⟨hintime, ?_⟩⟩
    rw [hturns]
    exact hrest

/-- Whatever its script, the pairs that reach a handle in a session come from refreshes in their
order. -/
theorem reaching_schedule_sorted (p : Profile) (hlasting : 0 < p.fetchTimeout) (handles : ℕ)
    (steps : List Step) (handle : ℕ) :
    ((fresh p handles).reaching handle ((fresh p handles).schedule steps)).Pairwise (· ≤ ·) := by
  have hattended := Attended.fresh p handles
  have horderly : Orderly (fresh p handles) :=
    ⟨hattended.renewable.coherent, hattended.seating, hlasting⟩
  have hintime := schedule_inTime (fun _ => rfl) horderly steps
  exact reaching_sorted_of_ascending (.ofProfile p) _ hintime handle

end Session

end FreshKeys.Refresh
