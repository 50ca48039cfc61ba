import FreshKeys.Proofs.Refresh.Secrecy
import FreshKeys.Proofs.Refresh.Sessions

/-!
# Sessions keep their secrets

What a task waits for, and which task is resumed first, does not depend on the secrets that the
source gives. So two sessions whose scripts differ only in what may not be shown of their replies
resume the same tasks in the same order, and their reports are the same under the veil.
-/

namespace FreshKeys.Refresh

/-- Whether two steps of a script differ only in what may not be shown of a reply. -/
inductive Step.Alike (p : Profile) : Step → Step → Prop where
  | reply {r r' : Reply} (h : r.Alike p r') : Alike p (.reply r) (.reply r')
  | same (step : Step) : Alike p step step

/-- A report, all pairs veiled. -/
def Report.veil (r : Report) : Report :=
  { r with done := r.done.map fun d => (d.1, d.2.1, d.2.2.veil), snapshot := r.snapshot.veil }

namespace Session

/-- Whether two sessions are the same under the veil, and wait for alike replies. -/
structure Alike (p : Profile) (s s' : Session) : Prop where
  provider : s.provider.Alike p s'.provider
  queue : List.Forall₂ (Reply.Alike p) s.queue s'.queue
  tasks : s.tasks = s'.tasks

/-- Whether two sessions have come to the same under the veil. -/
structure AlikeResult (p : Profile) (r r' : Session × List Effect) : Prop where
  session : Alike p r.1 r'.1
  effects : r.2.map Effect.veil = r'.2.map Effect.veil

variable {p : Profile} {s s' : Session}

namespace Alike

/-- What happens to both providers keeps the sessions alike. -/
theorem change (h : Alike p s s') {event event' : Provider.Event} (hevent : event.Alike p event') :
    AlikeResult p (s.change event) (s'.change event') :=
  ⟨⟨h.provider.step hevent, h.queue, h.tasks⟩, congrArg Prod.snd (h.provider.veilStep_eq hevent)⟩

/-- So does an event that a task brings about in both. -/
theorem happen (h : Alike p s s') (index : ℕ) (task : Task) {event event' : Event}
    (hevent : event.Alike p event') :
    AlikeResult p (s.happen index task event) (s'.happen index task event') :=
  ⟨⟨h.provider.step (.refresh hevent), h.queue, congrArg (List.set · index task) h.tasks⟩,
    congrArg Prod.snd (h.provider.veilStep_eq (.refresh hevent))⟩

/-- A task that waits can be resumed in both sessions, or in neither. -/
theorem resume? (h : Alike p s s') (index : ℕ) (task : Task) :
    Option.Rel (AlikeResult p) (s.resume? index task) (s'.resume? index task) := by
  have hveil : s.provider.cache.veil = s'.provider.cache.veil :=
    congrArg (fun v : Provider => v.cache) h.provider.veil
  have hseat : s'.provider.cache.seat? = s.provider.cache.seat? :=
    (congrArg (fun v : Cache => v.seat?) hveil).symm
  have hdue : s'.provider.cache.isDue = s.provider.cache.isDue := by
    funext cycle
    rw [← Cache.isDue_veil, ← hveil, Cache.isDue_veil]
  have hready : ∀ seat, (s'.provider.cache.receipt? seat).isSome =
      (s.provider.cache.receipt? seat).isSome := by
    intro seat
    have hreceipt := congrArg (fun v : Cache => (v.receipt? seat).isSome) hveil
    simpa [Cache.receipt?_veil] using hreceipt.symm
  unfold Session.resume?
  simp only [hseat, hdue, hready]
  cases s.provider.cache.seat? (task.call index task.begun) with
  | none => exact .none
  | some seat =>
    simp only [Option.bind_some]
    cases seat.role with
    | follower =>
      dsimp only
      split
      · exact .some (h.happen index _ (.same _))
      · exact .none
    | leader =>
      obtain ⟨provider, queue, tasks⟩ := s
      obtain ⟨provider', queue', tasks'⟩ := s'
      obtain ⟨hprovider, hqueue, htasks⟩ := h
      cases hqueue with
      | nil =>
        dsimp only
        split
        · exact .some (happen ⟨hprovider, .nil, htasks⟩ index _ (.same _))
        · exact .none
      | @cons reply reply' rest rest' halike hrest =>
        have hafter : Alike p ⟨provider, rest, tasks⟩ ⟨provider', rest', tasks'⟩ :=
          ⟨hprovider, hrest, htasks⟩
        exact .some (hafter.happen index _ (.answer _ halike))

/-- A call begins in both sessions alike, and waits in both or in neither. -/
theorem beginCall (h : Alike p s s') (index : ℕ) (task : Task) :
    AlikeResult p (s.beginCall index task) (s'.beginCall index task) := by
  have hevent : Provider.Event.Alike p (.refresh (.join (task.call index (task.begun + 1))))
      (.refresh (.join (task.call index (task.begun + 1)))) := .refresh (.same _)
  have heffects := congrArg Prod.snd (h.provider.veilStep_eq hevent)
  have hwaits := congrArg (List.any · fun e => e.return?.isSome) heffects
  simp only [Provider.veilStep, List.any_map, Function.comp_def, Effect.return?_veil,
    Option.isSome_map] at hwaits
  refine ⟨⟨h.provider.step hevent, h.queue, ?_⟩, heffects⟩
  simp only [Session.beginCall, hwaits, h.tasks]

/-- A task can go on in both sessions, or in neither. -/
theorem move? (h : Alike p s s') (index : ℕ) :
    Option.Rel (AlikeResult p) (s.move? index) (s'.move? index) := by
  unfold Session.move?
  rw [← h.tasks]
  cases s.tasks[index]? with
  | none => exact .none
  | some task =>
    simp only [Option.bind_some]
    split
    · exact h.resume? index task
    · split
      · exact .some (h.beginCall index task)
      · exact .none

/-- The same task goes first in both sessions. -/
theorem moveFrom? (h : Alike p s s') (cursor : ℕ) :
    Option.Rel (fun r r' => AlikeResult p (r.1, r.2.1) (r'.1, r'.2.1) ∧ r.2.2 = r'.2.2)
      (s.moveFrom? cursor) (s'.moveFrom? cursor) := by
  unfold Session.moveFrom?
  rw [← h.tasks]
  induction order s.tasks.length cursor with
  | nil => exact .none
  | cons index rest ih =>
    simp only [List.findSome?_cons]
    have hmove := h.move? index
    generalize s.move? index = moved, s'.move? index = moved' at hmove
    cases hmove with
    | none => exact ih
    | some hresult => exact .some ⟨hresult, rfl⟩

/-- Both sessions settle in the same way. -/
theorem settle (h : Alike p s s') (cursor : ℕ) :
    AlikeResult p (s.settle cursor) (s'.settle cursor) := by
  induction s, cursor using Session.settle.induct generalizing s' with
  | case1 s cursor hrest =>
    have hmove := h.moveFrom? cursor
    rw [hrest] at hmove
    rw [settle_eq, settle_eq, hrest]
    cases hmoved : s'.moveFrom? cursor with
    | none => exact ⟨h, rfl⟩
    | some => rw [hmoved] at hmove; cases hmove
  | case2 s cursor next effects index hmoved _ _ _ _ ih =>
    have hmove := h.moveFrom? cursor
    rw [hmoved] at hmove
    rw [settle_eq s, settle_eq s', hmoved]
    cases hmoved' : s'.moveFrom? cursor with
    | none => rw [hmoved'] at hmove; cases hmove
    | some result =>
      obtain ⟨next', effects', index'⟩ := result
      rw [hmoved'] at hmove
      obtain ⟨hresult, rfl⟩ : AlikeResult p (next, effects) (next', effects') ∧ index = index' := by
        cases hmove with
        | some hresult => exact hresult
      have hsettled := ih hresult.session
      refine ⟨hsettled.session, ?_⟩
      rw [List.map_append, List.map_append, hresult.effects, hsettled.effects]

/-- A task is given up in both sessions alike. -/
theorem abandon (h : Alike p s s') (index : ℕ) (task : Task) :
    AlikeResult p (s.abandon index task) (s'.abandon index task) := by
  let event : Provider.Event := .refresh (.drop (task.call index task.begun))
  have hdropped : AlikeResult p (if task.waiting then s.change event else (s, []))
      (if task.waiting then s'.change event else (s', [])) := by
    split
    · exact h.change (.refresh (.same _))
    · exact ⟨h, rfl⟩
  obtain ⟨⟨hprovider, hqueue, htasks⟩, heffects⟩ := hdropped
  exact ⟨⟨hprovider, hqueue, congrArg (List.set · index task.abandoned) htasks⟩, heffects⟩

/-- A step of a script does the same to both sessions. -/
theorem apply (h : Alike p s s') {step step' : Step} (hstep : step.Alike p step') :
    AlikeResult p (s.apply step) (s'.apply step') := by
  cases hstep with
  | reply halike =>
    exact ⟨⟨h.provider, List.rel_append h.queue (.cons halike .nil), h.tasks⟩, rfl⟩
  | same =>
    cases step with
    | start id way times => exact ⟨⟨h.provider, h.queue, congrArg (· ++ _) h.tasks⟩, rfl⟩
    | reply reply =>
      exact ⟨⟨h.provider, List.rel_append h.queue (.cons (.same reply) .nil), h.tasks⟩, rfl⟩
    | advance span => exact h.change (.refresh (.same (.advance span)))
    | abort id =>
      simp only [Session.apply, ← h.tasks]
      cases s.tasks[s.tasks.findIdx fun task => task.id == id]? with
      | none => exact ⟨h, rfl⟩
      | some task => exact h.abandon _ task
    | expire handle => exact h.change (.expire handle)
    | look => exact ⟨h, rfl⟩

/-- What is reported is the same under the veil. -/
theorem report_eq (h : Alike p s s') {effects effects' : List Effect}
    (heffects : effects.map Effect.veil = effects'.map Effect.veil) :
    (s.report effects).veil = (s'.report effects').veil := by
  -- the veiled report is that of a session with nothing but the veiled provider and the tasks
  have hreport : ∀ (s : Session) (effects : List Effect), (s.report effects).veil =
      (Session.mk s.provider.veil [] s.tasks).report (effects.map Effect.veil) := by
    intro s effects
    have hhandles : s.provider.veil.isHandleExpired = s.provider.isHandleExpired :=
      funext s.provider.isHandleExpired_veil
    have hslots : s.provider.veil.slots.length = s.provider.slots.length := List.length_map ..
    have hcycles : s.provider.veil.cache.cycles.length = s.provider.cache.cycles.length :=
      List.length_map ..
    simp only [report, Report.veil, Effect.filterMap_note?_veil, Effect.filterMap_read?_veil,
      Effect.filterMap_return?_veil, List.map_map, hhandles, hslots, hcycles]
    rfl
  rw [hreport, hreport, h.provider.veil, h.tasks, heffects]

/-- A step of a script is reported alike in both sessions. -/
theorem step (h : Alike p s s') {step step' : Step} (hstep : step.Alike p step') :
    Alike p (s.step step).1 (s'.step step').1 ∧
      (s.step step).2.veil = (s'.step step').2.veil := by
  have happlied := h.apply hstep
  have hsettled := happlied.session.settle 0
  have heffects : ((s.apply step).2 ++ ((s.apply step).1.settle 0).2).map Effect.veil =
      ((s'.apply step').2 ++ ((s'.apply step').1.settle 0).2).map Effect.veil := by
    rw [List.map_append, List.map_append, happlied.effects, hsettled.effects]
  exact ⟨hsettled.session, hsettled.session.report_eq heffects⟩

/-- A script is reported alike in both sessions. -/
theorem run (h : Alike p s s') {steps steps' : List Step}
    (hsteps : List.Forall₂ (Step.Alike p) steps steps') :
    (s.run steps).2.map Report.veil = (s'.run steps').2.map Report.veil := by
  induction hsteps generalizing s s' with
  | nil => rfl
  | cons hstep _ ih =>
    obtain ⟨hnext, hreport⟩ := h.step hstep
    simp only [Session.run, List.map_cons, hreport, ih hnext]

end Alike

/-- Two sessions whose profiles differ at most in the token give the same reports under the veil, on
scripts that differ only in what may not be shown of the replies. -/
theorem reports_eq_of_alike (p : Profile) (token : String) (handles : ℕ) {steps steps' : List Step}
    (h : List.Forall₂ (Step.Alike p) steps steps') :
    ((fresh p handles).run steps).2.map Report.veil =
      ((fresh { p with token } handles).run steps').2.map Report.veil :=
  have hstart : Alike p (fresh p handles) (fresh { p with token } handles) :=
    ⟨⟨rfl, rfl, rfl⟩, .nil, rfl⟩
  hstart.run h

end Session

end FreshKeys.Refresh
