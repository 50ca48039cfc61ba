import FreshKeys.Proofs.Refresh.Commits

/-!
# Where a pair comes from

On its way to a caller a pair passes through the tracked fields, the channel of its refresh and the
slot of a handle, while other refreshes come and go. Wherever it turns up, both its values are texts
of one secret, which answered the read of one refresh that succeeded. A call that joins a refresh is
given the pair of that refresh, and a handle holds and hands out only pairs of refreshes that were
joined through it.
-/

namespace FreshKeys.Refresh

/-- Whoever returns has had a seat: a leader returns what it makes of its refresh, a follower that
wakes what its refresh has come to. -/
theorem Cache.Delivering.seat_of_returned {c c' : Cache} {effects new : List Effect} {event : Event}
    (h : Delivering c effects) (hcoherent : Coherent c) (hmove : Move c event c' new) {call : Call}
    {outcome : Outcome} (hmem : .returned call outcome ∈ new) :
    ∃ s ∈ c.seats, s.call = call ∧
      ((s.role = .leader ∧ .finished s.cycle outcome c.cohort.followers ∈ new) ∨
        (s.role = .follower ∧ event = .wake call ∧
          ∃ followers, .finished s.cycle outcome followers ∈ effects)) := by
  obtain ⟨s, hs, hcall, hleads | ⟨hfollows, hwakes, receipt, hreceipt, rfl⟩⟩ :=
    hmove.returned_cases hmem
  · exact ⟨s, hs, hcall, Or.inl hleads⟩
  · refine ⟨s, hs, hcall, Or.inr ⟨hfollows, hwakes, ?_⟩⟩
    rcases hcoherent.receipt?_cases hs hfollows with ⟨-, hnone⟩ | ⟨sent, hchannel, hsent⟩
    · simp [hreceipt] at hnone
    · obtain rfl : receipt = .message sent := by simpa [hreceipt] using hsent
      exact h.sent _ _ hchannel

namespace Provider

/-- Every pair in a slot comes from a refresh that was joined through the slot's handle. -/
def Kept (slots : List (Option KeyPair)) (effects : List Effect) : Prop :=
  ∀ handle pair, slots[handle]? = some (some pair) →
    ∃ call role cycle followers, call.way = .handle handle ∧ .joined call role cycle ∈ effects ∧
      .finished cycle (.pair pair) followers ∈ effects

/-- What has come from somewhere goes on having come from there. -/
theorem Kept.append {slots : List (Option KeyPair)} {effects : List Effect}
    (h : Kept slots effects) (new : List Effect) : Kept slots (effects ++ new) := by
  intro handle pair hslot
  obtain ⟨call, role, cycle, followers, hway, hjoined, hfinished⟩ := h handle pair hslot
  exact ⟨call, role, cycle, followers, hway, List.mem_append_left _ hjoined,
    List.mem_append_left _ hfinished⟩

/-- What the effects so far, and the commits among them, say about a provider of a profile. -/
structure Sourced (p : Profile) (q : Provider) (effects : List Effect) (commits : List Commit) :
    Prop where
  recorded : q.cache.Recorded p effects commits
  kept : Kept q.slots effects

namespace Sourced

variable {p : Profile} {q q' : Provider} {effects new : List Effect} {commits : List Commit}
  {event : Event}

/-- A provider begins with nothing. -/
theorem fresh (p : Profile) (handles : ℕ) : Sourced p (.fresh (.ofProfile p) handles) [] [] where
  recorded := .ofProfile p
  kept handle pair hslot := by
    simp only [Provider.fresh, List.getElem?_replicate] at hslot
    split at hslot <;> simp at hslot

/-- What a move of the cache puts into a slot comes from a refresh. -/
theorem kept_move (h : Sourced p q effects commits) {event : Refresh.Event} {c' : Cache}
    {moved : List Effect} (hmove : Cache.Move q.cache event c' moved) :
    Kept (moved.foldl keep q.slots) (effects ++ moved) := by
  intro handle pair hslot
  rcases slot_of_keep hslot with hold | ⟨call, hway, hmem⟩
  · exact h.kept.append moved handle pair hold
  · obtain ⟨s, hs, rfl, hfinished⟩ :=
      h.recorded.delivering.seat_of_returned h.recorded.coherent hmove hmem
    obtain ⟨since, hjoined, -⟩ := h.recorded.delivering.seated s hs
    refine ⟨s.call, s.role, s.cycle, ?_⟩
    rcases hfinished with ⟨-, hnow⟩ | ⟨-, -, followers, hbefore⟩
    · exact ⟨_, hway, List.mem_append_left _ hjoined.mem, List.mem_append_right _ hnow⟩
    · exact ⟨followers, hway, List.mem_append_left _ hjoined.mem, List.mem_append_left _ hbefore⟩

/-- Notes and returns say nothing of where pairs come from. -/
theorem asides (h : Sourced p q effects commits) (hnew : ∀ e ∈ new, e.isAside = true) :
    Sourced p q (effects ++ new) commits :=
  ⟨h.recorded.asides hnew, h.kept.append new⟩

/-- Every step adds the commit that it is, and what it puts into a slot comes from a refresh. -/
theorem step (h : Sourced p q effects commits) (event : Event) :
    Sourced p (q.step event).1 (effects ++ (q.step event).2) (commits ++ q.commits event) := by
  have hmove := q.step_move event
  unfold Provider.commits
  generalize (q.step event).1 = q', (q.step event).2 = new at hmove
  cases hmove with
  | handOut call handle pair =>
    have haside : ∀ e ∈ [Effect.returned call (.pair pair)], e.isAside = true := by
      simp [Effect.isAside]
    simpa [Commit.ofEvent] using h.asides haside
  | refresh happened notes hmove =>
    have hnoted := h.asides (Effect.notes_asides notes)
    rw [Commit.ofEvent_asides _ (Effect.notes_asides notes), ← List.append_assoc]
    exact ⟨hnoted.recorded.move hmove, hnoted.kept_move hmove⟩
  | forget handle =>
    refine ⟨by simpa [Commit.ofEvent] using h.recorded, fun other pair hslot => ?_⟩
    rw [List.append_nil]
    refine h.kept other pair ?_
    rw [List.getElem?_set] at hslot
    split at hslot
    · simp at hslot
    · exact hslot

/-- What holds of a provider's effects and commits so far holds after a run. -/
theorem run (h : Sourced p q effects commits) (events : List Event) :
    Sourced p (q.run events).1 (effects ++ (q.run events).2) (commits ++ q.committed events) := by
  induction events generalizing q effects commits with
  | nil => simpa [Provider.run, committed] using h
  | cons event rest ih => simpa [Provider.run, committed] using ih (h.step event)

end Sourced

/-- Every run of a provider of a profile is one of pairs with a source. -/
theorem sourced_run (p : Profile) (handles : ℕ) (events : List Event) :
    Sourced p ((fresh (.ofProfile p) handles).run events).1
      ((fresh (.ofProfile p) handles).run events).2
      ((fresh (.ofProfile p) handles).committed events) :=
  (Sourced.fresh p handles).run events

/-- What an event, after some effects, makes of the pairs that are handed to callers and kept for
them: what the source has answered so far is in the events, and what came of it in the commits. -/
structure Provenance (p : Profile) (q : Provider) (effects : List Effect) (event : Event)
    (events : List Event) (commits : List Commit) : Prop where
  /-- A commit is a refresh that began with its leader, whose read the source answered with the
  commit's secret, and that ended with the two texts of that secret. -/
  committed : ∀ k ∈ commits, .refresh (.answer k.leader (.secret k.secret)) ∈ events ∧
    .joined k.leader .leader k.cycle ∈ effects ++ (q.step event).2 ∧
      ∃ pair followers, k.pair? p = some pair ∧
        .finished k.cycle (.pair pair) followers ∈ effects ++ (q.step event).2
  /-- A refresh is committed once, and one that is has not failed, whatever the failure. -/
  once : (commits.map Commit.cycle).Nodup
  unfailed : ∀ k ∈ commits, ∀ failure followers,
    .finished k.cycle (.failure failure) followers ∉ effects ++ (q.step event).2
  /-- Whoever is given a pair is given that of a commit: without a handle, of the refresh that the
  call joined last; through a handle, of one that was joined through the same handle. -/
  returned : ∀ call pair, .returned call (.pair pair) ∈ (q.step event).2 →
    ∃ k ∈ commits, k.pair? p = some pair ∧
      match call.way.handle? with
      | none => ∃ earlier role since followers,
          (q.step event).2 = earlier ++ [.returned call (.pair pair)] ∧
          JoinedLast (effects ++ earlier) call role k.cycle since ∧
          .finished k.cycle (.pair pair) followers ∈ since
      | some handle => ∃ asked role, asked.way = .handle handle ∧
          .joined asked role k.cycle ∈ effects
  /-- What a handle keeps is the pair of a commit whose refresh was joined through it. -/
  kept : ∀ handle pair, (q.step event).1.slots[handle]? = some (some pair) →
    ∃ k ∈ commits, k.pair? p = some pair ∧ ∃ asked role, asked.way = .handle handle ∧
      .joined asked role k.cycle ∈ effects ++ (q.step event).2

/-- A call that asks a handle is made through it. -/
theorem handle?_eq_some_iff {way : Way} {handle : ℕ} :
    way.handle? = some handle ↔ way = .handle handle := by
  cases way <;> simp [Way.handle?]

namespace Sourced

variable {p : Profile} {q q' : Provider} {effects new : List Effect} {commits more : List Commit}
  {event : Event}

/-- A pair in a slot is that of a commit whose refresh was joined through the slot's handle. -/
theorem commit_of_slot (h : Sourced p q effects commits) {handle : ℕ} {pair : KeyPair}
    (hslot : q.slots[handle]? = some (some pair)) :
    ∃ k ∈ commits, k.pair? p = some pair ∧ ∃ asked role, asked.way = .handle handle ∧
      .joined asked role k.cycle ∈ effects := by
  obtain ⟨asked, role, cycle, followers, hway, hjoined, hfinished⟩ := h.kept handle pair hslot
  obtain ⟨k, hk, rfl, hpair⟩ := h.recorded.commit_of_finished hfinished
  exact ⟨k, hk, hpair, asked, role, hway, hjoined⟩

/-- Who is given a pair is given that of a commit. -/
theorem commit_of_returned (h : Sourced p q effects commits)
    (h' : Sourced p q' (effects ++ new) (commits ++ more)) (hmove : Move q event q' new)
    {call : Call} {pair : KeyPair} (hmem : .returned call (.pair pair) ∈ new) :
    ∃ k ∈ commits ++ more, k.pair? p = some pair ∧
      match call.way.handle? with
      | none => ∃ earlier role since followers, new = earlier ++ [.returned call (.pair pair)] ∧
          JoinedLast (effects ++ earlier) call role k.cycle since ∧
          .finished k.cycle (.pair pair) followers ∈ since
      | some handle => ∃ asked role, asked.way = .handle handle ∧
          .joined asked role k.cycle ∈ effects := by
  cases hmove with
  | handOut asker handle stored hway hstored =>
    obtain ⟨rfl, rfl⟩ : call = asker ∧ pair = stored := by simpa using hmem
    obtain ⟨k, hk, hpair, hasked⟩ := h.commit_of_slot (stored?_eq_some_iff.mp hstored).2
    refine ⟨k, List.mem_append_left _ hk, hpair, ?_⟩
    simpa only [hway, Way.handle?] using hasked
  | @refresh happened notes _ moved hmove =>
    have hnoted := h.asides (Effect.notes_asides notes)
    have hmoved : .returned call (.pair pair) ∈ moved := by simpa using hmem
    obtain ⟨earlier, role, cycle, since, followers, hearlier, hjoined, hfinished⟩ :=
      hnoted.recorded.delivering.returned hnoted.recorded.coherent hmove hmoved
    have hmem : .finished cycle (.pair pair) followers ∈
        effects ++ (notes.map Effect.noted ++ moved) := by
      rw [hearlier, ← List.append_assoc, ← List.append_assoc]
      exact List.mem_append_left _ (hjoined.mem_of_since hfinished)
    obtain ⟨k, hk, rfl, hpair⟩ := h'.recorded.commit_of_finished hmem
    refine ⟨k, hk, hpair, ?_⟩
    cases hway : call.way.handle? with
    | none =>
      rw [List.append_assoc] at hjoined
      exact ⟨_, role, since, followers, by rw [hearlier, List.append_assoc], hjoined, hfinished⟩
    | some handle =>
      -- the call sat at its seat when it returned, so it has joined before
      obtain ⟨s, hs, rfl, -⟩ :=
        hnoted.recorded.delivering.seat_of_returned hnoted.recorded.coherent hmove hmoved
      have hbefore : .joined s.call role k.cycle ∉ earlier := fun hjoins =>
        hmove.joined_free hs role k.cycle (hearlier ▸ List.mem_append_left _ hjoins)
      have hafter := hjoined.mem
      simp only [List.mem_append, hbefore, or_false, List.mem_map, reduceCtorEq, and_false,
        exists_false] at hafter
      exact ⟨s.call, role, handle?_eq_some_iff.mp hway, hafter⟩
  | forget handle => cases hmem

end Sourced

/-- In every run, whatever happens next, every pair that is given to a caller or kept by a handle
comes from one secret and one refresh. -/
theorem provenance_run (p : Profile) (handles : ℕ) (events : List Event) (event : Event) :
    let before := (fresh (.ofProfile p) handles).run events
    Provenance p before.1 before.2 event (events ++ [event])
      ((fresh (.ofProfile p) handles).committed (events ++ [event])) := by
  intro before
  have hbefore := sourced_run p handles events
  have hafter := hbefore.step event
  have hmove := before.1.step_move event
  have hcommits : (fresh (.ofProfile p) handles).committed (events ++ [event]) =
      (fresh (.ofProfile p) handles).committed events ++ before.1.commits event := by
    rw [committed_append, committed, committed, List.append_nil]
  rw [hcommits]
  refine ⟨fun k hk => ?_, hafter.recorded.nodup_cycles,
    fun k hk failure followers => hafter.recorded.unfailed hk failure followers,
    fun call pair hmem => hbefore.commit_of_returned hafter hmove hmem,
    fun handle pair hslot => hafter.commit_of_slot hslot⟩
  obtain ⟨-, hjoined, pair, followers, hpair, hfinished⟩ := hafter.recorded.committed k hk
  have hanswer := answer_mem_of_committed (p := fresh (.ofProfile p) handles) (hcommits ▸ hk)
  exact ⟨hanswer, hjoined, pair, followers, hpair, hfinished⟩

end Provider

end FreshKeys.Refresh
