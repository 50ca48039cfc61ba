import FreshKeys.Refresh.Provider

/-!
# Sessions

A session is a provider over a scripted source on a virtual clock, with tasks that make calls. Each
step of the script changes one thing, and then the tasks are resumed until all of them have to
wait: in the order in which they were started and round again, each as far as it gets. A call that
leads waits for a reply or for the end of its time, and a reply that is there goes first; a call
that follows waits for the outcome.
-/

namespace FreshKeys.Refresh

/-- A task: the calls it has yet to begin, how many it has begun, and whether it waits in the last
of them. -/
structure Task where
  id : String
  way : Way
  left : Nat
  begun : Nat
  waiting : Bool
  deriving DecidableEq, Repr

namespace Task

/-- The call with a number of a task that was started as the given one. -/
def call (task : Task) (index number : Nat) : Call := ⟨index, number, task.way⟩

/-- How often a task can be resumed with success at most. -/
def weight (task : Task) : Nat := 2 * task.left + if task.waiting then 1 else 0

/-- The task after the call it waits in has returned. -/
def resumed (task : Task) : Task := { task with waiting := false }

/-- The task after it has begun a call, which may wait. -/
def begin (task : Task) (waits : Bool) : Task :=
  { task with left := task.left - 1, begun := task.begun + 1, waiting := waits }

/-- The task after it has been given up. -/
def abandoned (task : Task) : Task := { task with left := 0, waiting := false }

/-- A task that stops waiting can be resumed less often. -/
theorem weight_resumed_lt {task : Task} (waits : task.waiting = true) :
    task.resumed.weight < task.weight := by
  simp [weight, resumed, waits]

/-- A task that begins one of its calls can be resumed less often. -/
theorem weight_begin_lt {task : Task} (waits : Bool) (more : 0 < task.left) :
    (task.begin waits).weight < task.weight := by
  cases waits <;> simp [weight, begin] <;> omega

end Task

/-- A provider, the replies that are queued for its reads, and all tasks in the order in which they
were started. -/
structure Session where
  provider : Provider
  queue : List Reply
  tasks : List Task

/-- A step of a script. -/
inductive Step where
  /-- A task starts that makes a call so many times in a row. -/
  | start (id : String) (way : Way) (times : Nat)
  | reply (reply : Reply)
  | advance (span : Nat)
  | abort (id : String)
  | expire (handle : Nat)
  | look
  deriving Repr

/-- What can be seen after a step. -/
structure Report where
  /-- The calls that returned, with their task and their number in it. -/
  done : List (String × Nat × Outcome)
  /-- The paths of the reads that began. -/
  read : List String
  /-- How many reads have begun in all. -/
  reads : Nat
  waiters : Nat
  expired : Bool
  validUntil : Option Nat
  now : Nat
  snapshot : KeyPair
  handlesExpired : List Bool
  notes : List Note
  deriving DecidableEq, Repr

namespace Session

/-- A session before its first step. -/
def fresh (p : Profile) (handles : Nat) : Session := ⟨.fresh (.ofProfile p) handles, [], []⟩

/-- How often some tasks can be resumed with success at most. -/
def weightOf : List Task → Nat
  | [] => 0
  | task :: rest => task.weight + weightOf rest

/-- How often the tasks of a session can be resumed with success at most. -/
def weight (s : Session) : Nat := weightOf s.tasks

/-- The session after an event, with a task as it is then. -/
def happen (s : Session) (index : Nat) (task : Task) (event : Event) : Session × List Effect :=
  let (provider, effects) := s.provider.step (.refresh event)
  ({ s with provider, tasks := s.tasks.set index task }, effects)

/-- Resumes a task that waits in a call; nothing if it has to go on waiting. -/
def resume? (s : Session) (index : Nat) (task : Task) : Option (Session × List Effect) :=
  let call := task.call index task.begun
  (s.provider.cache.seat? call).bind fun seat =>
    match seat.role with
    | .leader =>
      match s.queue with
      | reply :: queue => some ({ s with queue }.happen index task.resumed (.answer call reply))
      | [] =>
        if s.provider.cache.isDue seat.cycle then
          some (s.happen index task.resumed (.timeOut call))
        else none
    | .follower =>
      if (s.provider.cache.receipt? seat).isSome then
        some (s.happen index task.resumed (.wake call))
      else none

/-- Begins the next call of a task. -/
def beginCall (s : Session) (index : Nat) (task : Task) : Session × List Effect :=
  let (provider, effects) := s.provider.step (.refresh (.join (task.call index (task.begun + 1))))
  let waits := !effects.any fun e => e.return?.isSome
  ({ s with provider, tasks := s.tasks.set index (task.begin waits) }, effects)

/-- Resumes a task; nothing if it is finished or has to wait. -/
def move? (s : Session) (index : Nat) : Option (Session × List Effect) :=
  s.tasks[index]?.bind fun task =>
    if task.waiting then s.resume? index task
    else if 0 < task.left then some (s.beginCall index task)
    else none

/-- The order in which tasks are tried, from the one at the cursor round to the one before it. -/
def order (count cursor : Nat) : List Nat :=
  (List.range count).drop cursor ++ (List.range count).take cursor

/-- Resumes the first task that can go on, and says which one it is. -/
def moveFrom? (s : Session) (cursor : Nat) : Option (Session × List Effect × Nat) :=
  (order s.tasks.length cursor).findSome? fun index =>
    (s.move? index).map fun (next, effects) => (next, effects, index)

/-- Tasks of which one is lighter than before can be resumed less often. -/
theorem weightOf_set_lt {tasks : List Task} {index : Nat} {task changed : Task}
    (found : tasks[index]? = some task) (lighter : changed.weight < task.weight) :
    weightOf (tasks.set index changed) < weightOf tasks := by
  induction tasks generalizing index with
  | nil => simp at found
  | cons first rest ih =>
    cases index with
    | zero =>
      simp only [List.getElem?_cons_zero, Option.some.injEq] at found
      subst found
      simpa [weightOf] using lighter
    | succ i =>
      simp only [List.getElem?_cons_succ] at found
      have := ih found
      simp only [List.set_cons_succ, weightOf]
      omega

/-- Each time a task is resumed, the session gets lighter. -/
theorem weight_move?_lt {s next : Session} {index : Nat} {effects : List Effect}
    (moved : s.move? index = some (next, effects)) : next.weight < s.weight := by
  unfold move? at moved
  obtain ⟨task, found, moved⟩ := Option.bind_eq_some_iff.1 moved
  split at moved
  · rename_i waiting
    have lighter := Task.weight_resumed_lt waiting
    obtain ⟨seat, -, moved⟩ := Option.bind_eq_some_iff.1 moved
    split at moved
    · split at moved
      · obtain rfl := congrArg Prod.fst (Option.some.inj moved)
        exact weightOf_set_lt found lighter
      · split at moved
        · obtain rfl := congrArg Prod.fst (Option.some.inj moved)
          exact weightOf_set_lt found lighter
        · cases moved
    · split at moved
      · obtain rfl := congrArg Prod.fst (Option.some.inj moved)
        exact weightOf_set_lt found lighter
      · cases moved
  · split at moved
    · rename_i begun
      obtain rfl := congrArg Prod.fst (Option.some.inj moved)
      exact weightOf_set_lt found (Task.weight_begin_lt _ begun)
    · cases moved

/-- So it does whichever task is resumed. -/
theorem weight_moveFrom?_lt {s next : Session} {cursor index : Nat} {effects : List Effect}
    (moved : s.moveFrom? cursor = some (next, effects, index)) : next.weight < s.weight := by
  obtain ⟨i, -, found⟩ := List.exists_of_findSome?_eq_some moved
  obtain ⟨⟨t, e⟩, step, same⟩ := Option.map_eq_some_iff.1 found
  simp only [Prod.mk.injEq] at same
  exact same.1 ▸ weight_move?_lt step

/-- Resumes tasks until none of them can go on. -/
def settle (s : Session) (cursor : Nat) : Session × List Effect :=
  match h : s.moveFrom? cursor with
  | none => (s, [])
  | some (next, effects, index) =>
    have := weight_moveFrom?_lt h
    let (last, more) := next.settle index
    (last, effects ++ more)
termination_by s.weight

/-- The session after something happened to its provider. -/
def change (s : Session) (event : Provider.Event) : Session × List Effect :=
  let (provider, effects) := s.provider.step event
  ({ s with provider }, effects)

/-- Gives a task up, with the call it waits in. -/
def abandon (s : Session) (index : Nat) (task : Task) : Session × List Effect :=
  let (next, effects) :=
    if task.waiting then s.change (.refresh (.drop (task.call index task.begun))) else (s, [])
  ({ next with tasks := next.tasks.set index task.abandoned }, effects)

/-- What a step itself does, before the tasks are resumed. -/
def apply (s : Session) : Step → Session × List Effect
  | .start id way times => ({ s with tasks := s.tasks ++ [⟨id, way, times, 0, false⟩] }, [])
  | .reply reply => ({ s with queue := s.queue ++ [reply] }, [])
  | .advance span => s.change (.refresh (.advance span))
  | .abort id =>
    let index := s.tasks.findIdx fun task => task.id == id
    match s.tasks[index]? with
    | some task => s.abandon index task
    | none => (s, [])
  | .expire handle => s.change (.expire handle)
  | .look => (s, [])

/-- Who a call belongs to, by name. -/
def nameOf (s : Session) (call : Call) : String := (s.tasks[call.caller]?.map Task.id).getD ""

/-- What can be seen, given what a step led to. -/
def report (s : Session) (effects : List Effect) : Report where
  done := (effects.filterMap Effect.return?).map fun r => (s.nameOf r.1, r.1.number, r.2)
  read := effects.filterMap Effect.read?
  reads := s.provider.cache.cycles.length
  waiters := s.provider.cache.cohort.waiters
  expired := s.provider.isExpired
  validUntil := s.provider.cache.window.validUntil
  now := s.provider.cache.now
  snapshot := s.provider.cache.snapshot
  handlesExpired := (List.range s.provider.slots.length).map s.provider.isHandleExpired
  notes := effects.filterMap Effect.note?

/-- Makes a step and resumes the tasks. -/
def step (s : Session) (step : Step) : Session × Report :=
  let (changed, first) := s.apply step
  let (settled, more) := changed.settle 0
  (settled, settled.report (first ++ more))

/-- Makes steps one after the other, with a report on each. -/
def run (s : Session) : List Step → Session × List Report
  | [] => (s, [])
  | step :: rest =>
    let (next, report) := s.step step
    let (last, reports) := next.run rest
    (last, report :: reports)

end Session

end FreshKeys.Refresh
