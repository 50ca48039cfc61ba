import FreshKeys.Proofs.Refresh.Sessions

/-!
# Tasks and their seats

A task that waits sits at a seat of the cache, in the call that it began last, and every seat is
that of a task that waits. Whoever is resumed or given up gives its seat up, whoever joins takes
one, and no turn of a session moves anybody else.
-/

namespace FreshKeys.Refresh

namespace Cache

/-- A leader that ends its refresh gives its seat up. -/
theorem commit_seats (c : Cache) (seat : Seat) (fetched : Except Failure Secret) :
    (c.commit seat fetched).1.seats = (c.leave seat.call).seats := by
  cases fetched with
  | error failure => rfl
  | ok secret =>
    cases hmerge : c.tracked.merge secret with
    | error failure => simp [commit, absorb, hmerge, Cache.leave, Cache.finish]
    | ok tracked => simp [commit, absorb, hmerge, Cache.leave, Cache.finish]

/-- A call that is given up gives its seat up. -/
theorem Coherent.seats_drop {c : Cache} (h : Coherent c) {seat : Seat} (hseat : seat ∈ c.seats) :
    (c.step (.drop seat.call)).1.seats = (c.leave seat.call).seats := by
  have hfound := h.seat?_eq hseat
  cases hrole : seat.role with
  | leader => simp [Cache.step, hfound, hrole, cancel, Cache.leave, Cache.finish]
  | follower => simp [Cache.step, hfound, hrole]

/-- A call that is resumed gives its seat up. -/
theorem Coherent.seats_resume {c : Cache} (h : Coherent c) {seat : Seat} (hseat : seat ∈ c.seats)
    {queue rest : List Reply} {event : Event} (hresumption : Resumption c seat queue event rest) :
    (c.step event).1.seats = (c.leave seat.call).seats := by
  have hfound := h.seatAs?_eq hseat
  cases hresumption with
  | answer reply queue hleads =>
    rw [hleads] at hfound
    simp only [Cache.step, hfound, commit_seats]
  | timeOut hleads hdue =>
    rw [hleads] at hfound
    simp only [Cache.step, hfound, hdue, if_true, commit_seats]
  | wake queue hfollows hreceipt =>
    rw [hfollows] at hfound
    simp only [Cache.step, hfound, hreceipt]

/-- A call that joins takes the last seat, and does not return yet. -/
theorem join_seats (c : Cache) {call : Call} (hfree : c.seat? call = none) :
    ∃ seat, seat.call = call ∧ (c.step (.join call)).1.seats = c.seats ++ [seat] ∧
      .joined call seat.role seat.cycle ∈ (c.step (.join call)).2 ∧
        ∀ e ∈ (c.step (.join call)).2, e.return? = none := by
  simp only [step, hfree, join]
  rcases cohort_join_cases c.cohort c.cycles.length with ⟨hjoin, -⟩ | ⟨cycle, hjoin, -⟩
  · refine ⟨_, rfl, by simp [hjoin]; rfl, ?_⟩
    simp [hjoin, Effect.return?]
  · refine ⟨_, rfl, by simp [hjoin]; rfl, ?_⟩
    simp [hjoin, Effect.return?]

end Cache

/-- Every seat is that of a task that waits in the call, and every task that waits has one. -/
structure Seating (seats : List Seat) (tasks : List Task) : Prop where
  occupied : ∀ seat ∈ seats, ∃ task : Task, tasks[seat.call.caller]? = some task ∧
    task.waiting = true ∧ seat.call = task.call seat.call.caller task.begun
  seated : ∀ (index : ℕ) (task : Task), tasks[index]? = some task → task.waiting = true →
    ∃ seat ∈ seats, seat.call = task.call index task.begun

namespace Seating

variable {seats : List Seat} {tasks : List Task} {index : ℕ} {task changed : Task}

/-- A task waits in its last call only. -/
theorem caller_eq_iff (h : Seating seats tasks) (hfound : tasks[index]? = some task) {seat : Seat}
    (hseat : seat ∈ seats) : seat.call.caller = index ↔ seat.call = task.call index task.begun := by
  constructor
  · rintro rfl
    obtain ⟨other, hother, -, hcall⟩ := h.occupied seat hseat
    obtain rfl := Option.some.inj (hother.symm.trans hfound)
    exact hcall
  · intro hcall
    rw [hcall]
    rfl

/-- A task that does not wait has no seat. -/
theorem caller_ne (h : Seating seats tasks) (hfound : tasks[index]? = some task)
    (hidle : task.waiting = false) {seat : Seat} (hseat : seat ∈ seats) :
    seat.call.caller ≠ index := by
  rintro rfl
  obtain ⟨other, hother, hwaiting, -⟩ := h.occupied seat hseat
  obtain rfl := Option.some.inj (hother.symm.trans hfound)
  rw [hidle] at hwaiting
  cases hwaiting

/-- A task that starts waits for nothing. -/
theorem start (h : Seating seats tasks) (hidle : task.waiting = false) :
    Seating seats (tasks ++ [task]) := by
  refine ⟨fun seat hseat => ?_, fun i t hfound hwaiting => ?_⟩
  · obtain ⟨other, hother, hrest⟩ := h.occupied seat hseat
    have hlt := (List.getElem?_eq_some_iff.mp hother).1
    exact ⟨other, by rw [List.getElem?_append_left hlt, hother], hrest⟩
  · rcases Nat.lt_or_ge i tasks.length with hlt | hge
    · rw [List.getElem?_append_left hlt] at hfound
      exact h.seated i t hfound hwaiting
    · rw [List.getElem?_append_right hge, List.getElem?_singleton] at hfound
      split at hfound
      · rw [← Option.some.inj hfound, hidle] at hwaiting
        cases hwaiting
      · cases hfound

/-- A task that waits no more leaves nothing but its seat. -/
theorem leave (h : Seating seats tasks) (hfound : tasks[index]? = some task)
    (hchanged : changed.waiting = false) :
    Seating (seats.filter fun s => s.call != task.call index task.begun)
      (tasks.set index changed) := by
  refine ⟨fun seat hseat => ?_, fun i t hset hwaiting => ?_⟩
  · obtain ⟨hseat, hcall⟩ := List.mem_filter.mp hseat
    have hne : index ≠ seat.call.caller := fun heq =>
      (bne_iff_ne.mp hcall) ((h.caller_eq_iff hfound hseat).mp heq.symm)
    rw [List.getElem?_set_ne hne]
    exact h.occupied seat hseat
  · by_cases hi : index = i
    · subst hi
      rw [List.getElem?_set_self (List.getElem?_eq_some_iff.mp hfound).1] at hset
      rw [← Option.some.inj hset, hchanged] at hwaiting
      cases hwaiting
    · rw [List.getElem?_set_ne hi] at hset
      obtain ⟨seat, hseat, hcall⟩ := h.seated i t hset hwaiting
      refine ⟨seat, List.mem_filter.mpr ⟨hseat, bne_iff_ne.mpr fun heq => hi ?_⟩, hcall⟩
      rw [← (h.caller_eq_iff hfound hseat).mpr heq, hcall]
      rfl

/-- What becomes of a task that does not wait concerns no seat. -/
theorem idle (h : Seating seats tasks) (hfound : tasks[index]? = some task)
    (hidle : task.waiting = false) (hchanged : changed.waiting = false) :
    Seating seats (tasks.set index changed) := by
  have hleft := h.leave hfound hchanged
  rwa [List.filter_eq_self.mpr] at hleft
  intro seat hseat
  rw [bne_iff_ne]
  exact fun heq => h.caller_ne hfound hidle hseat ((h.caller_eq_iff hfound hseat).mpr heq)

/-- A task that begins to wait takes a seat. -/
theorem join (h : Seating seats tasks) (hfound : tasks[index]? = some task)
    (hidle : task.waiting = false) (hchanged : changed.waiting = true) {seat : Seat}
    (hcall : seat.call = changed.call index changed.begun) :
    Seating (seats ++ [seat]) (tasks.set index changed) := by
  have hset : (tasks.set index changed)[index]? = some changed :=
    List.getElem?_set_self (List.getElem?_eq_some_iff.mp hfound).1
  refine ⟨fun s hs => ?_, fun i t ht hwaiting => ?_⟩
  · rcases List.mem_append.mp hs with hs | hs
    · rw [List.getElem?_set_ne (h.caller_ne hfound hidle hs).symm]
      exact h.occupied s hs
    · rw [List.mem_singleton.mp hs, hcall]
      exact ⟨changed, hset, hchanged, rfl⟩
  · by_cases hi : index = i
    · subst hi
      obtain rfl := Option.some.inj (hset.symm.trans ht)
      exact ⟨seat, List.mem_append_right _ (List.mem_singleton.mpr rfl), hcall⟩
    · rw [List.getElem?_set_ne hi] at ht
      obtain ⟨s, hs, hsame⟩ := h.seated i t ht hwaiting
      exact ⟨s, List.mem_append_left _ hs, hsame⟩

end Seating

namespace Session

variable {s : Session} {index : ℕ} {task : Task}

/-- A task that is given up gives up the seat of the call it waits in. -/
theorem seating_abandon (hcoherent : Cache.Coherent s.provider.cache)
    (h : Seating s.provider.cache.seats s.tasks) (hfound : s.tasks[index]? = some task) :
    Seating (s.abandon index task).1.provider.cache.seats (s.abandon index task).1.tasks := by
  cases hwaiting : task.waiting with
  | true =>
    obtain ⟨seat, hseat, hcall⟩ := h.seated index task hfound hwaiting
    have hleft := h.leave hfound (rfl : task.abandoned.waiting = false)
    have hdrop := hcoherent.seats_drop hseat
    rw [hcall] at hdrop
    simp only [abandon, hwaiting, if_true, change]
    exact hdrop ▸ hleft
  | false =>
    simp only [abandon, hwaiting]
    exact h.idle hfound hwaiting rfl

/-- A task that is resumed gives up the seat of the call it waited in. -/
theorem seating_resume (hcoherent : Cache.Coherent s.provider.cache)
    (h : Seating s.provider.cache.seats s.tasks) (hfound : s.tasks[index]? = some task)
    {result : Session × List Effect} (hresume : s.resume? index task = some result) :
    Seating result.1.provider.cache.seats result.1.tasks := by
  obtain ⟨seat, event, queue, hseat, hresumption, rfl⟩ := resume?_eq_some_iff.mp hresume
  obtain ⟨hseat, hcall⟩ := Cache.mem_of_seat? hseat
  have hleft := h.leave hfound (rfl : task.resumed.waiting = false)
  have hseats := hcoherent.seats_resume hseat hresumption
  rw [hcall] at hseats
  simp only [happen, hresumption.step_cache]
  exact hseats ▸ hleft

/-- A task begins a call by joining a refresh, unless its handle has a valid pair to return. -/
theorem beginCall_cases (h : Seating s.provider.cache.seats s.tasks)
    (hfound : s.tasks[index]? = some task) (hidle : task.waiting = false) :
    s.provider.cache.seat? (task.call index (task.begun + 1)) = none ∧
      ((∃ handle pair, task.way = .handle handle ∧ s.provider.stored? handle = some pair ∧
          s.beginCall index task = ({ s with tasks := s.tasks.set index (task.begin false) },
            [.returned (task.call index (task.begun + 1)) (.pair pair)])) ∨
        ∃ notes : List Note,
          (s.beginCall index task).1.tasks = s.tasks.set index (task.begin true) ∧
          (s.beginCall index task).1.provider.cache =
            (s.provider.cache.step (.join (task.call index (task.begun + 1)))).1 ∧
          (s.beginCall index task).2 = notes.map .noted ++
            (s.provider.cache.step (.join (task.call index (task.begun + 1)))).2) := by
  have hfree : s.provider.cache.seat? (task.call index (task.begun + 1)) = none := by
    refine Cache.seat?_eq_none_iff.mpr fun seat hseat hcall => ?_
    refine h.caller_ne hfound hidle hseat ?_
    rw [hcall]
    rfl
  refine ⟨hfree, ?_⟩
  have hstep : s.provider.step (.refresh (.join (task.call index (task.begun + 1)))) =
      s.provider.ask (task.call index (task.begun + 1)) := by
    simp only [Provider.step, hfree]
  rcases s.provider.ask_cases (task.call index (task.begun + 1)) with
    ⟨handle, pair, hway, hstored, hask⟩ | ⟨notes, -, hask⟩
  · refine Or.inl ⟨handle, pair, hway, hstored, ?_⟩
    simp [beginCall, hstep, hask, Effect.return?]
  · obtain ⟨-, -, -, -, hreturn⟩ := s.provider.cache.join_seats hfree
    refine Or.inr ⟨notes, ?_, by simp only [beginCall, hstep, hask, Provider.refresh], by
      simp only [beginCall, hstep, hask, Provider.refresh]⟩
    have hnone : (s.provider.ask (task.call index (task.begun + 1))).2.any
        (fun e => e.return?.isSome) = false := by
      rw [hask, List.any_append, Bool.or_eq_false_iff, List.any_eq_false, List.any_eq_false]
      refine ⟨fun e he => ?_, fun e he => by simp [hreturn e he]⟩
      obtain ⟨note, -, rfl⟩ := List.mem_map.mp he
      simp [Effect.return?]
    simp only [beginCall, hstep, hnone, Bool.not_false]

/-- A task that begins a call takes a seat, or does not wait. -/
theorem seating_begin (h : Seating s.provider.cache.seats s.tasks)
    (hfound : s.tasks[index]? = some task) (hidle : task.waiting = false) :
    Seating (s.beginCall index task).1.provider.cache.seats (s.beginCall index task).1.tasks := by
  obtain ⟨hfree, ⟨handle, pair, -, -, hbegin⟩ | ⟨notes, htasks, hcache, -⟩⟩ :=
    beginCall_cases h hfound hidle
  · rw [hbegin]
    exact h.idle hfound hidle rfl
  · obtain ⟨seat, hcall, hseats, -⟩ := s.provider.cache.join_seats hfree
    rw [htasks, hcache, hseats]
    exact h.join hfound hidle rfl hcall

/-- With every turn, whoever waits has a seat, and whoever has a seat waits. -/
theorem seating_turn (hcoherent : Cache.Coherent s.provider.cache)
    (h : Seating s.provider.cache.seats s.tasks) (turn : Turn) :
    Seating (s.turn turn).1.provider.cache.seats (s.turn turn).1.tasks := by
  cases turn with
  | script step =>
    cases step with
    | start id way times => exact h.start rfl
    | reply reply => exact h
    | advance span => exact h
    | abort id =>
      simp only [turn, apply]
      split
      · rename_i task hfound
        exact seating_abandon hcoherent h hfound
      · exact h
    | expire handle => exact h
    | look => exact h
  | resume index =>
    cases hmove : s.move? index with
    | none =>
      simp only [turn, hmove, Option.getD_none]
      exact h
    | some result =>
      simp only [turn, hmove, Option.getD_some]
      obtain ⟨task, hfound, ⟨-, hresume⟩ | ⟨hidle, -, rfl⟩⟩ := move?_cases hmove
      · exact seating_resume hcoherent h hfound hresume
      · exact seating_begin h hfound hidle

end Session

end FreshKeys.Refresh
