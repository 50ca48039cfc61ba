import FreshKeys.Proofs.Refresh.History
import FreshKeys.Proofs.Refresh.Providers

/-!
# What refreshes commit

A refresh that succeeds commits a secret: the one that answered the read of its leader, whose two
texts are the pair that the refresh ends with. The commits of a run are its successes in order, each
of a refresh of its own, and the window of a cache is that of the last of them.
-/

namespace FreshKeys

/-- The pair that a secret holds under two names, if it holds texts there. -/
def Secret.pair? (secret : Secret) (accessKeyName secretKeyName : String) : Option KeyPair :=
  match secret.get? accessKeyName, secret.get? secretKeyName with
  | some (.text access), some (.text hidden) => some ⟨access, hidden, KeyPair.vaultProvider⟩
  | _, _ => none

/-- What is taken over from a secret is the pair that it holds. -/
theorem TrackedPair.pair?_of_merge {tracked merged : TrackedPair} {secret : Secret}
    (h : tracked.merge secret = .ok merged) :
    secret.pair? tracked.accessKey.name tracked.secretKey.name = some merged.pair := by
  obtain ⟨access, hidden, haccess, hhidden, rfl⟩ := merge_eq_ok_iff.mp h
  simp [Secret.pair?, haccess, hhidden, pair]

namespace Refresh

/-- A refresh that succeeded: who led it, its number, when it was over, and the secret with which
its read was answered. -/
structure Commit where
  leader : Call
  cycle : ℕ
  time : ℕ
  secret : Secret

/-- The number of the refresh that ended with a pair. -/
def Effect.committed? : Effect → Option ℕ
  | .finished cycle (.pair _) _ => some cycle
  | _ => none

namespace Effect

/-- A note or a return commits nothing. -/
theorem committed?_eq_none {e : Effect} (h : e.isAside = true) : e.committed? = none := by
  cases e with
  | finished => cases h
  | _ => rfl

/-- Notes and returns commit nothing. -/
theorem filterMap_committed?_asides {effects : List Effect}
    (h : ∀ e ∈ effects, e.isAside = true) : effects.filterMap committed? = [] :=
  List.filterMap_eq_nil_iff.mpr fun e he => committed?_eq_none (h e he)

/-- A refresh that ended with a pair is a success. -/
theorem isSuccess_eq (e : Effect) : e.isSuccess = e.committed?.isSome := by
  cases e with
  | finished cycle outcome => cases outcome <;> rfl
  | _ => rfl

/-- There is a success among some effects unless nothing is committed by them. -/
theorem any_isSuccess (effects : List Effect) :
    effects.any isSuccess = !(effects.filterMap committed?).isEmpty := by
  induction effects with
  | nil => rfl
  | cons e rest ih => cases hcommitted : e.committed? <;> simp [isSuccess_eq, hcommitted, ih]

/-- What is committed has ended. -/
theorem committed?_sublist (effects : List Effect) :
    (effects.filterMap committed?).Sublist (effects.filterMap ended?) := by
  induction effects with
  | nil => exact List.Sublist.refl _
  | cons e rest ih =>
    cases e with
    | finished cycle outcome =>
      cases outcome with
      | pair => exact ih.cons_cons cycle
      | failure => exact ih.cons cycle
    | _ => exact ih

end Effect

namespace Commit

/-- The pair of a commit, by the names of a profile. -/
def pair? (k : Commit) (p : Profile) : Option KeyPair :=
  k.secret.pair? p.accessKeyName p.secretKeyName

/-- The commits that an event with some effects is: a secret that answers a leader's read, and a
refresh that ends with a pair. -/
def ofEvent (now : ℕ) (effects : List Effect) : Provider.Event → List Commit
  | .refresh (.answer leader (.secret secret)) =>
    (effects.filterMap Effect.committed?).map fun cycle => ⟨leader, cycle, now, secret⟩
  | _ => []

/-- Notes and returns before the effects of an event are no commits. -/
theorem ofEvent_asides (now : ℕ) {asides : List Effect} (h : ∀ e ∈ asides, e.isAside = true)
    (effects : List Effect) (event : Provider.Event) :
    ofEvent now (asides ++ effects) event = ofEvent now effects event := by
  cases event with
  | expire => rfl
  | refresh happened =>
    cases happened with
    | answer leader reply =>
      cases reply with
      | secret secret =>
        simp only [ofEvent, List.filterMap_append, Effect.filterMap_committed?_asides h,
          List.nil_append]
      | _ => rfl
    | _ => rfl

/-- What is committed with an event is committed at its instant. -/
theorem time_of_mem {now : ℕ} {effects : List Effect} {event : Provider.Event} {k : Commit}
    (h : k ∈ ofEvent now effects event) : k.time = now := by
  unfold ofEvent at h
  split at h
  · obtain ⟨cycle, -, rfl⟩ := List.mem_map.mp h
    rfl
  · cases h

/-- What is committed with an event is in order. -/
theorem ordered_ofEvent (now : ℕ) (effects : List Effect) (event : Provider.Event) :
    (ofEvent now effects event).Pairwise fun k later => k.time ≤ later.time := by
  refine List.pairwise_of_forall_mem_list fun k hk later hlater => ?_
  exact Nat.le_of_eq ((time_of_mem hk).trans (time_of_mem hlater).symm)

/-- The success that a commit is, with its instant. -/
def success (k : Commit) : ℕ × Event := (k.time, .answer k.leader (.secret k.secret))

end Commit

namespace Cache

/-- A move commits the refresh of a leader whose read is answered with a secret that holds a pair,
or nothing. -/
theorem Move.committed_cases {c c' : Cache} {event : Event} {new : List Effect}
    (hmove : Move c event c' new) :
    new.filterMap Effect.committed? = [] ∨
      ∃ s ∈ c.leaders, ∃ secret pair followers, event = .answer s.call (.secret secret) ∧
        secret.pair? c.tracked.accessKey.name c.tracked.secretKey.name = some pair ∧
        new.filterMap Effect.committed? = [s.cycle] ∧
        .finished s.cycle (.pair pair) followers ∈ new := by
  cases hmove with
  | @finish _ seat outcome _ _ rest hseat hleads hending =>
    have hcommits : (c.abandonment ++
        .finished seat.cycle outcome c.cohort.followers :: rest).filterMap Effect.committed? =
          (Effect.finished seat.cycle outcome c.cohort.followers).committed?.toList := by
      rw [List.filterMap_append, Effect.filterMap_committed?_asides c.abandonment_asides,
        List.nil_append, List.filterMap_cons, Effect.filterMap_committed?_asides hending.asides]
      cases outcome <;> rfl
    rw [hcommits]
    cases hending with
    | @taken _ secret tracked hfetched hmerge =>
      exact Or.inr ⟨seat, mem_leaders.mpr ⟨hseat, hleads⟩, secret, _, c.cohort.followers,
        hfetched.eq_answer, TrackedPair.pair?_of_merge hmerge, rfl, by simp⟩
    | refused => exact Or.inl rfl
    | failed => exact Or.inl rfl
    | cancelled => exact Or.inl rfl
  | _ => exact Or.inl (by simp [Effect.committed?])

/-- The commits of a move are its successes. -/
theorem Move.commits_success {c c' : Cache} {event : Event} {new : List Effect}
    (hmove : Move c event c' new) (now : ℕ) :
    (Commit.ofEvent now new (.refresh event)).map Commit.success =
      if new.any Effect.isSuccess then [(now, event)] else [] := by
  rw [Effect.any_isSuccess]
  rcases hmove.committed_cases with hnone | ⟨s, -, secret, pair, followers, rfl, -, hone, -⟩
  · rw [hnone]
    cases event with
    | answer leader reply => cases reply <;> simp [Commit.ofEvent, hnone]
    | _ => rfl
  · simp [Commit.ofEvent, hone, Commit.success]

/-- The commits of a move are the refreshes that it ended with a pair. -/
theorem Move.commits_cycles {c c' : Cache} {event : Event} {new : List Effect}
    (hmove : Move c event c' new) (now : ℕ) :
    (Commit.ofEvent now new (.refresh event)).map Commit.cycle =
      new.filterMap Effect.committed? := by
  rcases hmove.committed_cases with hnone | ⟨s, -, secret, pair, followers, rfl, -, hone, -⟩
  · rw [hnone]
    cases event with
    | answer leader reply => cases reply <;> simp [Commit.ofEvent, hnone]
    | _ => rfl
  · simp [Commit.ofEvent, hone]

/-- A move that ends a refresh with a pair is the commit of its leader. -/
theorem Move.commit_of_finished {c c' : Cache} {event : Event} {new : List Effect}
    (hmove : Move c event c' new) {cycle followers : ℕ} {pair : KeyPair}
    (hmem : .finished cycle (.pair pair) followers ∈ new) (now : ℕ) :
    ∃ s ∈ c.leaders, s.cycle = cycle ∧ ∃ secret, event = .answer s.call (.secret secret) ∧
      Commit.ofEvent now new (.refresh event) = [⟨s.call, cycle, now, secret⟩] := by
  have hcommitted : cycle ∈ new.filterMap Effect.committed? := List.mem_filterMap.mpr ⟨_, hmem, rfl⟩
  rcases hmove.committed_cases with hnone | ⟨s, hs, secret, given, others, rfl, -, hone, -⟩
  · simp [hnone] at hcommitted
  · obtain rfl : cycle = s.cycle := by simpa [hone] using hcommitted
    exact ⟨s, hs, rfl, secret, rfl, by simp [Commit.ofEvent, hone]⟩

/-- What the effects so far, and the commits among them, say about a cache of a profile. -/
structure Recorded (p : Profile) (c : Cache) (effects : List Effect) (commits : List Commit) :
    Prop where
  coherent : Coherent c
  counted : Counted c effects
  delivering : Delivering c effects
  remembers : Remembers p c (commits.map Commit.success)
  cycles : commits.map Commit.cycle = effects.filterMap Effect.committed?
  ordered : commits.Pairwise fun k later => k.time ≤ later.time
  committed : ∀ k ∈ commits, k.time ≤ c.now ∧ .joined k.leader .leader k.cycle ∈ effects ∧
    ∃ pair followers, k.pair? p = some pair ∧ .finished k.cycle (.pair pair) followers ∈ effects

namespace Recorded

variable {p : Profile} {c c' : Cache} {effects new : List Effect} {commits : List Commit}
  {event : Event}

/-- Nothing is recorded of an empty cache. -/
theorem ofProfile (p : Profile) : Recorded p (.ofProfile p) [] [] where
  coherent := Coherent.fresh _ _ _
  counted := Counted.fresh _ _ _
  delivering := Delivering.fresh _ _ _
  remembers := Remembers.ofProfile p
  cycles := rfl
  ordered := List.Pairwise.nil
  committed _ hk := absurd hk List.not_mem_nil

/-- Notes and returns commit nothing. -/
theorem asides (h : Recorded p c effects commits) (hnew : ∀ e ∈ new, e.isAside = true) :
    Recorded p c (effects ++ new) commits := by
  refine ⟨h.coherent, h.counted.asides hnew, h.delivering.asides hnew, h.remembers, ?_, h.ordered,
    ?_⟩
  · rw [List.filterMap_append, Effect.filterMap_committed?_asides hnew, List.append_nil, h.cycles]
  · intro k hk
    obtain ⟨htime, hjoined, pair, followers, hpair, hmem⟩ := h.committed k hk
    exact ⟨htime, List.mem_append_left _ hjoined, pair, followers, hpair,
      List.mem_append_left _ hmem⟩

/-- A move adds the commit that it is. -/
theorem move (h : Recorded p c effects commits) (hmove : Move c event c' new) :
    Recorded p c' (effects ++ new) (commits ++ Commit.ofEvent c.now new (.refresh event)) := by
  refine ⟨h.coherent.move hmove, h.counted.move h.coherent hmove,
    h.delivering.move h.coherent h.counted hmove, ?_, ?_, ?_, ?_⟩
  · rw [List.map_append, hmove.commits_success]
    exact h.remembers.move hmove
  · rw [List.map_append, List.filterMap_append, hmove.commits_cycles, h.cycles]
  · refine List.pairwise_append.mpr ⟨h.ordered, Commit.ordered_ofEvent .., fun k hk now hnow => ?_⟩
    rw [Commit.time_of_mem hnow]
    exact (h.committed k hk).1
  · obtain ⟨-, hnow⟩ := hmove.terms_eq
    intro k hk
    rcases List.mem_append.mp hk with hk | hk
    · obtain ⟨htime, hjoined, pair, followers, hpair, hmem⟩ := h.committed k hk
      exact ⟨Nat.le_trans htime hnow, List.mem_append_left _ hjoined, pair, followers, hpair,
        List.mem_append_left _ hmem⟩
    · rcases hmove.committed_cases with
        hnone | ⟨s, hs, secret, pair, followers, rfl, hpair, hone, hmem⟩
      · have hcycles := hmove.commits_cycles c.now
        rw [hnone, List.map_eq_nil_iff] at hcycles
        simp [hcycles] at hk
      · obtain rfl : k = ⟨s.call, s.cycle, c.now, secret⟩ := by
          simpa [Commit.ofEvent, hone] using hk
        obtain ⟨hseat, hleads⟩ := mem_leaders.mp hs
        obtain ⟨since, hjoined, -⟩ := h.delivering.seated s hseat
        refine ⟨hnow, List.mem_append_left _ (hleads ▸ hjoined.mem), pair, followers, ?_,
          List.mem_append_right _ hmem⟩
        rw [h.remembers.accessKeyName, h.remembers.secretKeyName] at hpair
        exact hpair

/-- A refresh that ended with a pair was committed, and the pair is that of the commit. -/
theorem commit_of_finished (h : Recorded p c effects commits) {cycle followers : ℕ}
    {pair : KeyPair} (hmem : .finished cycle (.pair pair) followers ∈ effects) :
    ∃ k ∈ commits, k.cycle = cycle ∧ k.pair? p = some pair := by
  have hcycle : cycle ∈ commits.map Commit.cycle := by
    rw [h.cycles]
    exact List.mem_filterMap.mpr ⟨_, hmem, rfl⟩
  obtain ⟨k, hk, rfl⟩ := List.mem_map.mp hcycle
  obtain ⟨-, -, given, others, hgiven, hfinished⟩ := h.committed k hk
  obtain rfl := Outcome.pair.inj (h.counted.finished_unique hfinished hmem)
  exact ⟨k, hk, rfl, hgiven⟩

/-- A refresh is committed once. -/
theorem nodup_cycles (h : Recorded p c effects commits) : (commits.map Commit.cycle).Nodup := by
  have hended : (effects.filterMap Effect.ended?).Nodup := h.counted.ended ▸ List.nodup_range
  rw [h.cycles]
  exact hended.sublist (Effect.committed?_sublist effects)

/-- A refresh that was committed has not failed. -/
theorem unfailed (h : Recorded p c effects commits) {k : Commit} (hk : k ∈ commits)
    (failure : Failure) (followers : ℕ) :
    .finished k.cycle (.failure failure) followers ∉ effects := by
  intro hmem
  obtain ⟨-, -, pair, others, -, hfinished⟩ := h.committed k hk
  cases h.counted.finished_unique hfinished hmem

/-- While its window is open a cache has had a success, and the last one is not a span ago. -/
theorem last_of_open (h : Recorded p c effects commits) (hopen : c.isExpired = false) :
    ∃ last, commits.getLast? = some last ∧ c.now ≤ last.time + p.ttl ∧
      ∀ k ∈ commits, k.time ≤ last.time := by
  cases hlast : commits.getLast? with
  | none =>
    obtain rfl := List.getLast?_eq_none_iff.mp hlast
    simp [isExpired, Window.isExpired, (h.remembers.empty rfl).2] at hopen
  | some last =>
    obtain ⟨earlier, rfl⟩ := List.getLast?_eq_some_iff.mp hlast
    have hsuccess : ((earlier ++ [last]).map Commit.success).getLast? = some last.success := by simp
    obtain ⟨-, -, -, -, -, -, -, -, hvalid⟩ := h.remembers.last _ _ hsuccess
    refine ⟨last, rfl, by simpa [isExpired, Window.isExpired, hvalid] using hopen, fun k hk => ?_⟩
    rcases List.mem_append.mp hk with hk | hk
    · exact (List.pairwise_append.mp h.ordered).2.2 k hk last (List.mem_singleton.mpr rfl)
    · obtain rfl := List.mem_singleton.mp hk
      exact Nat.le_refl _

/-- Once the last success is a span ago, a cache is expired. -/
theorem isExpired_of_past (h : Recorded p c effects commits)
    (hpast : ∀ k ∈ commits, k.time + p.ttl < c.now) : c.isExpired = true := by
  by_contra hopen
  obtain ⟨last, hlast, hnow, -⟩ := h.last_of_open (by simpa using hopen)
  have := hpast last (List.mem_of_getLast? hlast)
  omega

end Recorded

end Cache

namespace Provider

/-- The commits that an event of a provider is. -/
def commits (p : Provider) (event : Event) : List Commit :=
  Commit.ofEvent p.cache.now (p.step event).2 event

/-- The commits of a run, in order. -/
def committed (p : Provider) : List Event → List Commit
  | [] => []
  | event :: rest => p.commits event ++ (p.step event).1.committed rest

/-- What is committed in two parts of a run is committed in it. -/
theorem committed_append (p : Provider) (first second : List Event) :
    p.committed (first ++ second) = p.committed first ++ (p.run first).1.committed second := by
  induction first generalizing p with
  | nil => rfl
  | cons event rest ih => simp [committed, run, ih]

/-- The secret of a commit has answered the read of its leader. -/
theorem answer_mem_of_committed {p : Provider} {events : List Event} {k : Commit}
    (h : k ∈ p.committed events) : .refresh (.answer k.leader (.secret k.secret)) ∈ events := by
  induction events generalizing p with
  | nil => cases h
  | cons event rest ih =>
    rcases List.mem_append.mp h with hk | hk
    · cases event with
      | expire => cases hk
      | refresh happened =>
        cases happened with
        | answer leader reply =>
          cases reply with
          | secret secret =>
            obtain ⟨cycle, -, rfl⟩ := List.mem_map.mp hk
            exact List.mem_cons_self ..
          | _ => cases hk
        | _ => cases hk
    · exact List.mem_cons_of_mem _ (ih hk)

end Provider

end Refresh

end FreshKeys
