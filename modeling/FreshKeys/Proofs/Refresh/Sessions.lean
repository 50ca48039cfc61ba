import FreshKeys.Proofs.Refresh.Providers
import FreshKeys.Refresh.Session

/-!
# Sessions in any order of resumption

A session resumes its tasks in a fixed order, but nothing that is proved of it depends on that
order. Here a session goes on in turns: a step of its script, or one task that is resumed if it can
be. The runs of a session are among the runs in turns, and they end where no task can be resumed.
Whatever the turn, at most one event happens to the cache.
-/

namespace FreshKeys.Refresh

/-- What a session does at a time: a step of its script, or to resume a task. -/
inductive Turn where
  | script (step : Step)
  | resume (index : ℕ)

/-- How a call that waits is resumed: on which event, and what is left of the queue then. -/
inductive Resumption (c : Cache) (seat : Seat) : List Reply → Event → List Reply → Prop where
  | answer (reply : Reply) (queue : List Reply) (hleads : seat.role = .leader) :
    Resumption c seat (reply :: queue) (.answer seat.call reply) queue
  | timeOut (hleads : seat.role = .leader) (hdue : c.isDue seat.cycle = true) :
    Resumption c seat [] (.timeOut seat.call) []
  | wake {receipt : Receipt Outcome} (queue : List Reply) (hfollows : seat.role = .follower)
    (hreceipt : c.receipt? seat = some receipt) :
    Resumption c seat queue (.wake seat.call) queue

/-- A call that is resumed has been begun, so its handle is not asked again. -/
theorem Resumption.step_cache {p : Provider} {seat : Seat} {queue rest : List Reply} {event : Event}
    (h : Resumption p.cache seat queue event rest) :
    (p.step (.refresh event)).1.cache = (p.cache.step event).1 := by
  cases h <;> rfl

namespace Session

/-- A task that waits is resumed as its call can be. -/
theorem resume?_eq_some_iff {s : Session} {index : ℕ} {task : Task}
    {result : Session × List Effect} :
    s.resume? index task = some result ↔
      ∃ seat event queue, s.provider.cache.seat? (task.call index task.begun) = some seat ∧
        Resumption s.provider.cache seat s.queue event queue ∧
          result = happen { s with queue } index task.resumed event := by
  constructor
  · intro h
    obtain ⟨seat, hseat, h⟩ := Option.bind_eq_some_iff.mp h
    have hcall := (Cache.mem_of_seat? hseat).2
    cases hrole : seat.role with
    | leader =>
      cases hqueue : s.queue with
      | cons reply queue =>
        simp only [hrole, hqueue, ← hcall, Option.some.injEq] at h
        exact ⟨seat, _, queue, hseat, .answer reply queue hrole, h.symm⟩
      | nil =>
        simp only [hrole, hqueue, ← hcall, Option.ite_none_right_eq_some, Option.some.injEq] at h
        refine ⟨seat, _, [], hseat, .timeOut hrole h.1, ?_⟩
        rw [← h.2, ← hqueue]
    | follower =>
      simp only [hrole, ← hcall, Option.ite_none_right_eq_some, Option.some.injEq] at h
      obtain ⟨receipt, hreceipt⟩ := Option.isSome_iff_exists.mp h.1
      exact ⟨seat, _, s.queue, hseat, .wake s.queue hrole hreceipt, h.2.symm⟩
  · rintro ⟨seat, event, queue, hseat, hresumption, rfl⟩
    have hcall := (Cache.mem_of_seat? hseat).2
    rw [resume?, hseat, Option.bind_some, ← hcall]
    obtain ⟨provider, old, tasks⟩ := s
    cases hresumption with
    | answer reply queue hleads => simp [hleads]
    | timeOut hleads hdue => simp [hleads, hdue]
    | wake queue hfollows hreceipt => simp [hfollows, hreceipt]

/-- A task that can be resumed waits in a call that can be, or has a call to begin. -/
theorem move?_cases {s : Session} {index : ℕ} {result : Session × List Effect}
    (h : s.move? index = some result) :
    ∃ task, s.tasks[index]? = some task ∧
      ((task.waiting = true ∧ s.resume? index task = some result) ∨
        (task.waiting = false ∧ 0 < task.left ∧ result = s.beginCall index task)) := by
  obtain ⟨task, hfound, h⟩ := Option.bind_eq_some_iff.mp h
  refine ⟨task, hfound, ?_⟩
  cases hwaiting : task.waiting with
  | true => exact Or.inl ⟨rfl, by simpa [hwaiting] using h⟩
  | false =>
    simp only [hwaiting, Bool.false_eq_true, if_false, Option.ite_none_right_eq_some,
      Option.some.injEq] at h
    exact Or.inr ⟨rfl, h.1, h.2.symm⟩

/-- A turn of a session. A task that has to wait is not resumed. -/
def turn (s : Session) : Turn → Session × List Effect
  | .script step => s.apply step
  | .resume index => (s.move? index).getD (s, [])

/-- Takes turns, one after the other. -/
def turns (s : Session) : List Turn → Session × List Effect
  | [] => (s, [])
  | turn :: rest =>
    let (next, effects) := s.turn turn
    let (last, more) := next.turns rest
    (last, effects ++ more)

/-- A session is quiet when no task can be resumed. -/
def Quiet (s : Session) : Prop := ∀ index, s.move? index = none

/-- Turns can be taken in two parts. -/
theorem turns_append (s : Session) (first second : List Turn) :
    s.turns (first ++ second) =
      (((s.turns first).1.turns second).1,
        (s.turns first).2 ++ ((s.turns first).1.turns second).2) := by
  induction first generalizing s with
  | nil => rfl
  | cons turn rest ih => simp [turns, ih]

/-- What every turn keeps of a session and of the effects so far holds after all of them. -/
theorem turns_induction {P : Session → List Effect → Prop}
    (hturn : ∀ s effects turn, P s effects → P (s.turn turn).1 (effects ++ (s.turn turn).2))
    {s : Session} {effects : List Effect} (hstart : P s effects) (list : List Turn) :
    P (s.turns list).1 (effects ++ (s.turns list).2) := by
  induction list generalizing s effects with
  | nil => simpa [turns] using hstart
  | cons turn rest ih => simpa [turns, List.append_assoc] using ih (hturn s effects turn hstart)

/-- A session in which the search for a task to resume fails is quiet. -/
theorem quiet_of_moveFrom? {s : Session} {cursor : ℕ} (h : s.moveFrom? cursor = none) :
    s.Quiet := by
  intro index
  rcases Nat.lt_or_ge index s.tasks.length with hlt | hge
  · have hmem : index ∈ order s.tasks.length cursor := by
      rw [order, List.mem_append, or_comm, ← List.mem_append, List.take_append_drop]
      exact List.mem_range.mpr hlt
    exact Option.map_eq_none_iff.mp (List.findSome?_eq_none_iff.mp h index hmem)
  · rw [move?, List.getElem?_eq_none hge, Option.bind_none]

/-- A session settles by the first task that can be resumed, and on from there. -/
theorem settle_eq (s : Session) (cursor : ℕ) :
    s.settle cursor =
      match s.moveFrom? cursor with
      | none => (s, [])
      | some (next, effects, index) =>
        ((next.settle index).1, effects ++ (next.settle index).2) := by
  rw [settle]
  split
  · rename_i hmoved
    rw [hmoved]
  · rename_i hmoved
    simp only [hmoved]

/-- The turns in which a session settles. -/
def settling (s : Session) (cursor : ℕ) : List Turn :=
  match h : s.moveFrom? cursor with
  | none => []
  | some (next, _, index) =>
    have := weight_moveFrom?_lt h
    .resume index :: next.settling index
termination_by s.weight

/-- The turns of a run: each step of the script, and those in which the session settles after it. -/
def schedule (s : Session) : List Step → List Turn
  | [] => []
  | step :: rest => .script step :: (s.apply step).1.settling 0 ++ (s.step step).1.schedule rest

/-- The first turn in which a session settles is that of the first task that can be resumed. -/
theorem settling_eq (s : Session) (cursor : ℕ) :
    s.settling cursor =
      match s.moveFrom? cursor with
      | none => []
      | some (next, _, index) => .resume index :: next.settling index := by
  rw [settling]
  split
  · rename_i hmoved
    rw [hmoved]
  · rename_i hmoved
    simp only [hmoved]

/-- The task that is resumed is the one that is found. -/
theorem move?_of_moveFrom? {s next : Session} {cursor index : ℕ} {effects : List Effect}
    (h : s.moveFrom? cursor = some (next, effects, index)) :
    s.move? index = some (next, effects) := by
  obtain ⟨i, -, hfound⟩ := List.exists_of_findSome?_eq_some h
  obtain ⟨⟨t, e⟩, hmove, heq⟩ := Option.map_eq_some_iff.mp hfound
  obtain ⟨rfl, rfl, rfl⟩ : t = next ∧ e = effects ∧ i = index := by simpa using heq
  exact hmove

/-- To settle is to take these turns. -/
theorem settle_eq_turns (s : Session) (cursor : ℕ) :
    s.settle cursor = s.turns (s.settling cursor) := by
  induction s, cursor using settle.induct with
  | case1 s cursor hrest =>
    rw [settle_eq, settling_eq, hrest]
    rfl
  | case2 s cursor next effects index hmoved _ _ _ _ ih =>
    rw [settle_eq, settling_eq, hmoved]
    simp [turns, turn, move?_of_moveFrom? hmoved, ih]

/-- A run takes the turns of its schedule. -/
theorem run_eq_turns (s : Session) (steps : List Step) :
    (s.run steps).1 = (s.turns (s.schedule steps)).1 := by
  induction steps generalizing s with
  | nil => rfl
  | cons first rest ih =>
    have hstep : (s.step first).1 = ((s.apply first).1.turns ((s.apply first).1.settling 0)).1 := by
      rw [← settle_eq_turns]
      rfl
    rw [run, schedule, ih]
    simp only [List.cons_append, turns, turn, turns_append, hstep]

/-- A session settles until it is quiet. -/
theorem settle_quiet (s : Session) (cursor : ℕ) : (s.settle cursor).1.Quiet := by
  induction s, cursor using settle.induct with
  | case1 s cursor hrest =>
    rw [settle_eq, hrest]
    exact quiet_of_moveFrom? hrest
  | case2 s cursor next effects index hmoved _ _ _ _ ih =>
    rw [settle_eq, hmoved]
    exact ih

/-- The runs of a session are taken in turns. -/
theorem run_turns (s : Session) (steps : List Step) :
    ∃ list, (s.run steps).1 = (s.turns list).1 :=
  ⟨_, run_eq_turns s steps⟩

/-- A run ends in a quiet session. -/
theorem run_quiet (s : Session) (steps : List Step) (last : Step) :
    (s.run (steps ++ [last])).1.Quiet := by
  induction steps generalizing s with
  | nil => exact settle_quiet (s.apply last).1 0
  | cons first rest ih => exact ih (s.step first).1

/-- What a turn does to the provider comes of one event at most. -/
theorem turn_provider (s : Session) (turn : Turn) :
    ((s.turn turn).1.provider = s.provider ∧ (s.turn turn).2 = []) ∨
      ∃ event, (s.turn turn).1.provider = (s.provider.step event).1 ∧
        (s.turn turn).2 = (s.provider.step event).2 := by
  cases turn with
  | script step =>
    cases step with
    | start id way times => exact Or.inl ⟨rfl, rfl⟩
    | reply reply => exact Or.inl ⟨rfl, rfl⟩
    | advance span => exact Or.inr ⟨.refresh (.advance span), rfl, rfl⟩
    | abort id =>
      simp only [turn, apply]
      split
      · rename_i task _
        cases hwaiting : task.waiting with
        | true =>
          refine Or.inr
            ⟨.refresh (.drop (task.call (s.tasks.findIdx fun t => t.id == id) task.begun)), ?_⟩
          simp only [abandon, hwaiting, if_true, change, and_self]
        | false => exact Or.inl (by simp [abandon, hwaiting])
      · exact Or.inl ⟨rfl, rfl⟩
    | expire handle => exact Or.inr ⟨.expire handle, rfl, rfl⟩
    | look => exact Or.inl ⟨rfl, rfl⟩
  | resume index =>
    cases hmove : s.move? index with
    | none => exact Or.inl (by simp [turn, hmove])
    | some result =>
      simp only [turn, hmove, Option.getD_some]
      obtain ⟨task, -, ⟨-, hresume⟩ | ⟨-, -, rfl⟩⟩ := move?_cases hmove
      · obtain ⟨seat, event, queue, -, -, rfl⟩ := resume?_eq_some_iff.mp hresume
        exact Or.inr ⟨.refresh event, rfl, rfl⟩
      · exact Or.inr ⟨.refresh (.join (task.call index (task.begun + 1))), rfl, rfl⟩

/-- With every turn the cache makes one move; what else there is to see are notes and returns. -/
theorem turn_move (s : Session) (turn : Turn) :
    ∃ happened asides moved,
      Cache.Move s.provider.cache happened (s.turn turn).1.provider.cache moved ∧
        (s.turn turn).2 = asides ++ moved ∧ ∀ e ∈ asides, e.isAside = true := by
  rcases s.turn_provider turn with ⟨hprovider, heffects⟩ | ⟨event, hprovider, heffects⟩
  · rw [hprovider, heffects]
    exact ⟨.advance 0, [], [], Cache.Move.still _, rfl, fun _ he => absurd he List.not_mem_nil⟩
  · rw [hprovider, heffects]
    exact (s.provider.step_move event).cache_move

end Session

end FreshKeys.Refresh
