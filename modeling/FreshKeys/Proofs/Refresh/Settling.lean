import FreshKeys.Proofs.Refresh.Seating

/-!
# Nobody is left waiting

In a session in which no task can be resumed, everybody waits for the refresh in flight, its leader
among them; and the leader waits only as long as there is no reply for its read, and the time of the
read is not up. When a refresh is over, however it ended, the next call that joins begins a read.
-/

namespace FreshKeys.Refresh

/-- A refresh is over, and nobody has joined one since. -/
def OverLast (effects : List Effect) : Prop :=
  ∃ before cycle outcome followers since,
    effects = before ++ .finished cycle outcome followers :: since ∧
      ∀ call role cycle', .joined call role cycle' ∉ since

/-- What is over after some more effects was over before them, or is over among them. -/
theorem OverLast.of_append {effects new : List Effect} (h : OverLast (effects ++ new)) :
    (∃ cycle outcome followers, .finished cycle outcome followers ∈ new) ∨
      (OverLast effects ∧ ∀ call role cycle, .joined call role cycle ∉ new) := by
  obtain ⟨before, cycle, outcome, followers, since, heq, hsince⟩ := h
  rcases List.append_eq_append_iff.mp heq with ⟨between, -, hnew⟩ | ⟨between, heffects, hrest⟩
  · exact Or.inl ⟨cycle, outcome, followers, hnew ▸ List.mem_append_right _ (List.mem_cons_self ..)⟩
  · cases between with
    | nil =>
      rw [List.nil_append] at hrest
      exact Or.inl ⟨cycle, outcome, followers, hrest ▸ List.mem_cons_self ..⟩
    | cons first rest =>
      obtain ⟨rfl, rfl⟩ := List.cons.inj hrest
      refine Or.inr ⟨⟨before, cycle, outcome, followers, rest, heffects, ?_⟩, ?_⟩
      · exact fun call role k hmem => hsince call role k (List.mem_append_left _ hmem)
      · exact fun call role k hmem => hsince call role k (List.mem_append_right _ hmem)

/-- What is over after some effects is over whatever was before them. -/
theorem OverLast.append_left {new : List Effect} (h : OverLast new) (effects : List Effect) :
    OverLast (effects ++ new) := by
  obtain ⟨before, cycle, outcome, followers, since, rfl, hsince⟩ := h
  exact ⟨effects ++ before, cycle, outcome, followers, since, by simp, hsince⟩

namespace Cache

/-- When a refresh is over, its cohort is empty. -/
theorem Move.cohort_of_finished {c c' : Cache} {event : Event} {new : List Effect}
    (hmove : Move c event c' new) {cycle followers : ℕ} {outcome : Outcome}
    (hmem : .finished cycle outcome followers ∈ new) : c'.cohort = .idle := by
  obtain ⟨seat, -, -, tracked, window, rest, -, rfl, -⟩ := hmove.ending_of_finished hmem
  rfl

/-- Unless a call joins, a cohort stays as it is, or becomes empty. -/
theorem Move.cohort_of_unjoined {c c' : Cache} {event : Event} {new : List Effect}
    (hmove : Move c event c' new) (hmem : ∀ call role cycle, .joined call role cycle ∉ new) :
    c'.cohort = c.cohort ∨ c'.cohort = .idle := by
  cases hmove with
  | lead call => exact absurd (List.mem_cons_self ..) (hmem call .leader c.cycles.length)
  | follow call cycle => exact absurd (List.mem_cons_self ..) (hmem call .follower cycle)
  | finish => exact Or.inr rfl
  | _ => exact Or.inl rfl

/-- When its leader waits no more, a refresh is over. -/
theorem Move.overLast {c c' : Cache} {event : Event} {new : List Effect}
    (hmove : Move c event c' new) (hcoherent : Coherent c) {s : Seat} (hs : s ∈ c.leaders)
    (hgone : s ∉ c'.seats) : OverLast new := by
  have hseat := (mem_leaders.mp hs).1
  cases hmove with
  | still => exact absurd hseat hgone
  | lead => exact absurd (List.mem_append_left _ hseat) hgone
  | follow => exact absurd (List.mem_append_left _ hseat) hgone
  | @finish _ seat outcome _ _ rest _ _ hending =>
    refine ⟨c.abandonment, seat.cycle, outcome, c.cohort.followers, rest, rfl, ?_⟩
    intro call role cycle hmem
    cases hending.asides _ hmem
  | receive hother hfollows =>
    rw [← hcoherent.leaders_leave hother hfollows] at hs
    exact absurd (mem_leaders.mp hs).1 hgone
  | leave hother hfollows =>
    rw [← hcoherent.leaders_leave hother hfollows] at hs
    exact absurd (mem_leaders.mp hs).1 hgone
  | advance => exact absurd hseat hgone

/-- The instants at which reads began are kept, and each new read adds its own. -/
theorem Move.startedAt_eq {c c' : Cache} {event : Event} {new : List Effect}
    (hmove : Move c event c' new) :
    c'.cycles.map Cycle.startedAt =
      c.cycles.map Cycle.startedAt ++ (new.filterMap Effect.read?).map fun _ => c.now := by
  cases hmove with
  | lead => simp [List.filterMap_cons, Effect.read?]
  | @finish _ seat outcome tracked window rest _ _ hending =>
    have hnone : (c.abandonment ++
        .finished seat.cycle outcome c.cohort.followers :: rest).filterMap Effect.read? = [] := by
      rw [List.filterMap_eq_nil_iff]
      intro e he
      cases e with
      | readStarted path => cases hending.eq_finished he rfl
      | _ => rfl
    rw [hnone, List.map_nil, List.append_nil]
    exact startedAt_finish { c with tracked, window } outcome
  | _ => simp [List.filterMap_cons, Effect.read?, Cache.leave]

/-- What the effects so far say about the next refresh of a cache. -/
structure Renewable (terms : Terms) (c : Cache) (effects : List Effect) : Prop where
  coherent : Coherent c
  terms_eq : c.terms = terms
  idle : OverLast effects → c.cohort = .idle

namespace Renewable

variable {terms : Terms} {c c' : Cache} {effects new : List Effect} {event : Event}

/-- Every move keeps a cache ready for its next refresh. -/
theorem move (h : Renewable terms c effects) (hmove : Move c event c' new) {asides : List Effect}
    (hasides : ∀ e ∈ asides, e.isAside = true) :
    Renewable terms c' (effects ++ (asides ++ new)) := by
  refine ⟨h.coherent.move hmove, hmove.terms_eq.1.trans h.terms_eq, fun hover => ?_⟩
  rcases hover.of_append with ⟨cycle, outcome, followers, hmem⟩ | ⟨hbefore, hunjoined⟩
  · rcases List.mem_append.mp hmem with haside | hmem
    · cases hasides _ haside
    · exact hmove.cohort_of_finished hmem
  · rcases hmove.cohort_of_unjoined fun call role cycle hmem =>
      hunjoined call role cycle (List.mem_append_right _ hmem) with hsame | hidle
    · exact hsame.trans (h.idle hbefore)
    · exact hidle

end Renewable

end Cache

namespace Session

variable {s : Session} {index : ℕ} {task : Task}

/-- What keeps a session going: its cache is ready for the next refresh, its tasks have seats. -/
structure Attended (p : Profile) (s : Session) (effects : List Effect) : Prop where
  renewable : Cache.Renewable ⟨p.secretPath, p.ttl, p.fetchTimeout⟩ s.provider.cache effects
  seating : Seating s.provider.cache.seats s.tasks

/-- A session begins with nobody waiting. -/
theorem Attended.fresh (p : Profile) (handles : ℕ) : Attended p (.fresh p handles) [] where
  renewable := ⟨Cache.Coherent.fresh _ _ _, rfl, fun _ => rfl⟩
  seating := ⟨fun _ hseat => absurd hseat List.not_mem_nil, fun _ _ hfound => by cases hfound⟩

/-- Every turn keeps a session going. -/
theorem Attended.turn {p : Profile} {effects : List Effect} (h : Attended p s effects)
    (turn : Turn) : Attended p (s.turn turn).1 (effects ++ (s.turn turn).2) := by
  obtain ⟨happened, asides, moved, hmove, heffects, hasides⟩ := s.turn_move turn
  refine ⟨?_, seating_turn h.renewable.coherent h.seating turn⟩
  rw [heffects]
  exact h.renewable.move hmove hasides

/-- Whatever turns a session takes, it is kept going. -/
theorem attended_turns (p : Profile) (handles : ℕ) (turns : List Turn) :
    Attended p ((fresh p handles).turns turns).1 ((fresh p handles).turns turns).2 := by
  have h := turns_induction (P := Attended p) (fun _ _ turn h => h.turn turn)
    (Attended.fresh p handles) turns
  rwa [List.nil_append] at h

/-- When no task can be resumed, nobody waits unless a refresh is in flight; and whoever waits,
waits for that refresh, with no reply there for its read, and the time of the read not up. -/
structure Settled (p : Profile) (s : Session) : Prop where
  idle : s.provider.cache.cohort.waiters = 0 → ∀ task ∈ s.tasks, task.waiting = false
  waits : ∀ (index : ℕ) (task : Task), s.tasks[index]? = some task → task.waiting = true →
    ∃ seat ∈ s.provider.cache.seats, seat.call = task.call index task.begun ∧
      s.provider.cache.cohort.signal = some seat.cycle ∧ s.queue = [] ∧
        ∃ k, s.provider.cache.cycles[seat.cycle]? = some k ∧
          s.provider.cache.now < k.startedAt + p.fetchTimeout

/-- Whoever could be resumed at its seat disturbs the quiet. -/
theorem Quiet.not_resumption (hquiet : s.Quiet) (hcoherent : Cache.Coherent s.provider.cache)
    (hseating : Seating s.provider.cache.seats s.tasks) {seat : Seat}
    (hseat : seat ∈ s.provider.cache.seats) {event : Event} {rest : List Reply} :
    ¬ Resumption s.provider.cache seat s.queue event rest := by
  intro hresumption
  obtain ⟨task, hfound, hwaiting, hcall⟩ := hseating.occupied seat hseat
  have hresume := resume?_eq_some_iff.mpr
    ⟨seat, event, rest, hcall ▸ hcoherent.seat?_eq hseat, hresumption, rfl⟩
  have hmove := hquiet seat.call.caller
  simp [move?, hfound, hwaiting, hresume] at hmove

/-- In a quiet session everybody waits for the refresh in flight. -/
theorem Quiet.signal_eq (hquiet : s.Quiet) (hcoherent : Cache.Coherent s.provider.cache)
    (hseating : Seating s.provider.cache.seats s.tasks) {seat : Seat}
    (hseat : seat ∈ s.provider.cache.seats) :
    s.provider.cache.cohort.signal = some seat.cycle := by
  cases hrole : seat.role with
  | leader => exact (hcoherent.of_leader hseat hrole).1
  | follower =>
    rcases hcoherent.receipt?_cases hseat hrole with ⟨hsignal, -⟩ | ⟨outcome, -, hreceipt⟩
    · exact hsignal
    · exact absurd (Resumption.wake s.queue hrole hreceipt)
        (hquiet.not_resumption hcoherent hseating hseat)

/-- In a quiet session the leader of the refresh in flight has no reply for its read, and time. -/
theorem Quiet.of_signal (hquiet : s.Quiet) (hcoherent : Cache.Coherent s.provider.cache)
    (hseating : Seating s.provider.cache.seats s.tasks) {cycle : ℕ}
    (hsignal : s.provider.cache.cohort.signal = some cycle) :
    s.queue = [] ∧ ∃ k, s.provider.cache.cycles[cycle]? = some k ∧
      s.provider.cache.now < k.startedAt + s.provider.cache.terms.fetchTimeout := by
  have hflight := hcoherent.busy cycle hsignal
  obtain ⟨call, hled⟩ := hflight.led
  have hseat : (⟨call, cycle, .leader, 0⟩ : Seat) ∈ s.provider.cache.seats :=
    (Cache.mem_leaders.mp (hled ▸ List.mem_singleton.mpr rfl)).1
  have hstays : ∀ event rest, ¬ Resumption s.provider.cache _ s.queue event rest :=
    fun _ _ => hquiet.not_resumption hcoherent hseating hseat
  cases hqueue : s.queue with
  | cons reply rest =>
    rw [hqueue] at hstays
    exact absurd (Resumption.answer reply rest rfl) (hstays _ _)
  | nil =>
    rw [hqueue] at hstays
    have hlt : cycle < s.provider.cache.cycles.length := hflight.last ▸ Nat.lt_succ_self cycle
    have hdue : s.provider.cache.isDue cycle = false :=
      Bool.eq_false_iff.mpr fun hdue => hstays _ _ (Resumption.timeOut rfl hdue)
    rw [Cache.isDue, List.getElem?_eq_getElem hlt] at hdue
    exact ⟨rfl, _, List.getElem?_eq_getElem hlt, by simpa using hdue⟩

/-- A quiet session that is kept going is settled. -/
theorem Attended.settled {p : Profile} {effects : List Effect} (h : Attended p s effects)
    (hquiet : s.Quiet) : Settled p s := by
  have hcoherent := h.renewable.coherent
  refine ⟨fun hidle task hmem => ?_, fun index task hfound hwaiting => ?_⟩
  · cases hwaiting : task.waiting with
    | false => rfl
    | true =>
      obtain ⟨index, hfound⟩ := List.mem_iff_getElem?.mp hmem
      obtain ⟨seat, hseat, -⟩ := h.seating.seated index task hfound hwaiting
      have hsignal := hquiet.signal_eq hcoherent h.seating hseat
      have hcounted := (hcoherent.busy _ hsignal).counted
      omega
  · obtain ⟨seat, hseat, hcall⟩ := h.seating.seated index task hfound hwaiting
    have hsignal := hquiet.signal_eq hcoherent h.seating hseat
    obtain ⟨hqueue, k, hk, htime⟩ := hquiet.of_signal hcoherent h.seating hsignal
    rw [h.renewable.terms_eq] at htime
    exact ⟨seat, hseat, hcall, hsignal, hqueue, k, hk, htime⟩

/-- A task begins its next call with a read that it leads, unless its handle has a valid pair. -/
def BeginsRead (p : Profile) (s : Session) (index : ℕ) (task : Task) : Prop :=
  ∃ result, s.move? index = some result ∧
    ((∃ handle pair, task.way = .handle handle ∧ s.provider.stored? handle = some pair ∧
        result.2 = [.returned (task.call index (task.begun + 1)) (.pair pair)]) ∨
      ∃ cycle, .joined (task.call index (task.begun + 1)) .leader cycle ∈ result.2 ∧
        .readStarted p.secretPath ∈ result.2)

/-- What a session promises to whoever calls, after some turns with some effects. -/
structure Prompt (p : Profile) (s : Session) (effects : List Effect) : Prop where
  /-- In whatever order tasks have been resumed, nobody waits in vain once none can be resumed. -/
  settled : s.Quiet → Settled p s
  /-- After every step of a script the tasks come to such a rest. -/
  settled_run : ∀ steps last,
    (s.run (steps ++ [last])).1.Quiet ∧ Settled p (s.run (steps ++ [last])).1
  /-- The instant of a refresh is the one at which its read began. -/
  startedAt : ∀ turn, (s.turn turn).1.provider.cache.cycles.map Cycle.startedAt =
    s.provider.cache.cycles.map Cycle.startedAt ++
      ((s.turn turn).2.filterMap Effect.read?).map fun _ => s.provider.cache.now
  /-- A refresh is over when its leader waits no more, given up or not. -/
  ended : ∀ turn, ∀ seat ∈ s.provider.cache.leaders, seat ∉ (s.turn turn).1.provider.cache.seats →
    OverLast (effects ++ (s.turn turn).2)
  /-- The next call after a refresh is over begins a read. -/
  renewed : OverLast effects → ∀ (index : ℕ) (task : Task), s.tasks[index]? = some task →
    task.waiting = false → 0 < task.left → BeginsRead p s index task

/-- A task that begins a call after a refresh is over begins a read with it. -/
theorem Attended.renewed {p : Profile} {effects : List Effect} (h : Attended p s effects)
    (hover : OverLast effects) (hfound : s.tasks[index]? = some task)
    (hidle : task.waiting = false) (hmore : 0 < task.left) : BeginsRead p s index task := by
  have hmove : s.move? index = some (s.beginCall index task) := by
    simp [move?, hfound, hidle, hmore]
  refine ⟨_, hmove, ?_⟩
  obtain ⟨hfree, ⟨handle, pair, hway, hstored, hbegin⟩ | ⟨notes, -, -, heffects⟩⟩ :=
    beginCall_cases h.seating hfound hidle
  · exact Or.inl ⟨handle, pair, hway, hstored, by rw [hbegin]⟩
  · have hnobody : s.provider.cache.cohort.waiters = 0 := by
      rw [h.renewable.idle hover]
      rfl
    have hjoins := h.renewable.coherent.join_effects hfree
    rw [if_pos hnobody, h.renewable.terms_eq] at hjoins
    rw [heffects, hjoins]
    exact Or.inr ⟨s.provider.cache.cycles.length, by simp, by simp⟩

/-- Whatever turns a session takes, nobody is left waiting. -/
theorem prompt_turns (p : Profile) (handles : ℕ) (turns : List Turn) :
    let reached := (fresh p handles).turns turns
    Prompt p reached.1 reached.2 := by
  intro reached
  have h := attended_turns p handles turns
  refine ⟨h.settled, fun steps last => ?_, fun turn => ?_, fun turn seat hseat hgone => ?_,
    fun hover index task hfound hidle hmore => h.renewed hover hfound hidle hmore⟩
  · have hquiet := reached.1.run_quiet steps last
    obtain ⟨list, hlist⟩ := reached.1.run_turns (steps ++ [last])
    have hlater := attended_turns p handles (turns ++ list)
    rw [turns_append] at hlater
    rw [hlist] at hquiet ⊢
    exact ⟨hquiet, hlater.settled hquiet⟩
  · obtain ⟨happened, asides, moved, hmove, heffects, hasides⟩ := reached.1.turn_move turn
    have hnone : asides.filterMap Effect.read? = [] :=
      List.filterMap_eq_nil_iff.mpr fun e he => Effect.read?_eq_none (hasides e he)
    rw [heffects, List.filterMap_append, hnone, List.nil_append]
    exact hmove.startedAt_eq
  · obtain ⟨happened, asides, moved, hmove, heffects, hasides⟩ := reached.1.turn_move turn
    rw [heffects]
    exact ((hmove.overLast h.renewable.coherent hseat hgone).append_left asides).append_left _

end Session

end FreshKeys.Refresh
