import FreshKeys.Proofs.Refresh.Provenance

/-!
# How old a pair from a handle can be

A handle keeps the pair that it was given, but whether the pair may still be handed out is for the
provider to say, and the provider's window is that of the last success, whoever asked for it. So a
pair from a handle is one that its call has waited for, or one that is kept while the window of the
last success is open; the pair itself may be older than that window. Once the window is over, every
handle asks again.
-/

namespace FreshKeys.Refresh

namespace Provider

/-- How a call through a handle is given the pair of a commit, by an event after some effects. -/
inductive Handed (p : Profile) (q : Provider) (effects : List Effect) (commits : List Commit)
    (call : Call) (handle : ℕ) (k : Commit) : Event → Prop where
  /-- The call leads the refresh, and commits it now. -/
  | led (hleads : k.leader = call) (hnow : k.time = q.cache.now) :
    Handed p q effects commits call handle k (.refresh (.answer call (.secret k.secret)))
  /-- The call has followed the refresh, which was over while it waited. -/
  | followed {pair : KeyPair} {since : List Effect} {followers : ℕ}
    (hjoined : JoinedLast effects call .follower k.cycle since)
    (hfinished : .finished k.cycle (.pair pair) followers ∈ since) :
    Handed p q effects commits call handle k (.refresh (.wake call))
  /-- The call begins now, and the handle keeps the pair, for which it was asked before. The last
  commit, perhaps a later one, is not a span ago. -/
  | stored {asked : Call} {role : Role} {last : Commit} (hasked : asked.way = .handle handle)
    (hjoined : .joined asked role k.cycle ∈ effects)
    (hkept : q.slots[handle]? = some (k.pair? p)) (hlast : commits.getLast? = some last)
    (hlater : k.time ≤ last.time) (hopen : q.cache.now ≤ last.time + p.ttl) :
    Handed p q effects commits call handle k (.refresh (.join call))

/-- What an event, after some effects and commits, makes of those who ask handles. -/
structure HandOuts (p : Profile) (q : Provider) (effects : List Effect) (commits : List Commit)
    (event : Event) : Prop where
  /-- Whoever is given a pair through a handle has waited for it, or finds it kept while the window
  of the last commit is open. -/
  handed : ∀ call handle pair, call.way = .handle handle →
    .returned call (.pair pair) ∈ (q.step event).2 →
      ∃ k ∈ commits ++ q.commits event, k.pair? p = some pair ∧ k.time ≤ q.cache.now ∧
        Handed p q effects commits call handle k event
  /-- Once all commits are a span ago, a call that begins through a handle joins a refresh. -/
  renewed : (∀ k ∈ commits, k.time + p.ttl < q.cache.now) →
    ∀ call handle, call.way = .handle handle → q.cache.seat? call = none →
      ∃ role cycle, .joined call role cycle ∈ (q.step (.refresh (.join call))).2

namespace Sourced

variable {p : Profile} {q q' : Provider} {effects new : List Effect} {commits : List Commit}
  {event : Event}

/-- Who is given a pair through a handle has waited for it, or finds it kept. -/
theorem handed (h : Sourced p q effects commits) {call : Call} {handle : ℕ} {pair : KeyPair}
    (hway : call.way = .handle handle) (hmem : .returned call (.pair pair) ∈ (q.step event).2) :
    ∃ k ∈ commits ++ q.commits event, k.pair? p = some pair ∧ k.time ≤ q.cache.now ∧
      Handed p q effects commits call handle k event := by
  have hafter := h.step event
  have hmove := q.step_move event
  unfold Provider.commits at hafter ⊢
  generalize (q.step event).1 = q', (q.step event).2 = new at hmove hmem hafter
  cases hmove with
  | handOut asker other kept hasker hstored =>
    obtain ⟨rfl, rfl⟩ : call = asker ∧ pair = kept := by simpa using hmem
    obtain rfl := Way.handle.inj (hway.symm.trans hasker)
    obtain ⟨hopen, hslot⟩ := stored?_eq_some_iff.mp hstored
    obtain ⟨k, hk, hpair, asked, role, hasked, hjoined⟩ := h.commit_of_slot hslot
    obtain ⟨last, hlast, hnow, hlatest⟩ := h.recorded.last_of_open hopen
    exact ⟨k, List.mem_append_left _ hk, hpair, (h.recorded.committed k hk).1,
      Handed.stored hasked hjoined (by rw [hslot, hpair]) hlast (hlatest k hk) hnow⟩
  | @refresh happened notes _ moved hmove =>
    have hmoved : .returned call (.pair pair) ∈ moved := by simpa using hmem
    obtain ⟨s, hs, rfl, ⟨hleads, hfinished⟩ | ⟨hfollows, rfl, followers, hfinished⟩⟩ :=
      h.recorded.delivering.seat_of_returned h.recorded.coherent hmove hmoved
    · obtain ⟨leader, hleader, hcycle, secret, rfl, hcommit⟩ :=
        hmove.commit_of_finished hfinished q.cache.now
      -- there is one leader only
      have hsame : leader = s := by
        simpa [(h.recorded.coherent.of_leader hs hleads).2] using hleader
      subst hsame
      rw [Commit.ofEvent_asides _ (Effect.notes_asides notes), hcommit] at hafter ⊢
      have hk : (⟨leader.call, leader.cycle, q.cache.now, secret⟩ : Commit) ∈
          commits ++ [⟨leader.call, leader.cycle, q.cache.now, secret⟩] := by simp
      obtain ⟨-, -, given, others, hgiven, hover⟩ := hafter.recorded.committed _ hk
      have hends : .finished leader.cycle (.pair pair) q.cache.cohort.followers ∈
          effects ++ (notes.map .noted ++ moved) := by simp [hfinished]
      obtain rfl := Outcome.pair.inj (hafter.recorded.counted.finished_unique hover hends)
      exact ⟨_, hk, hgiven, Nat.le_refl _, Handed.led rfl rfl⟩
    · obtain ⟨k, hk, hcycle, hpair⟩ := h.recorded.commit_of_finished hfinished
      obtain ⟨since, hjoined, hsince⟩ := h.recorded.delivering.seated s hs
      rw [hfollows, ← hcycle] at hjoined
      exact ⟨k, List.mem_append_left _ hk, hpair, (h.recorded.committed k hk).1,
        Handed.followed hjoined (hcycle ▸ hsince _ _ hfinished)⟩
  | forget => cases hmem

end Sourced

/-- In every run, whatever happens next, a handle hands out what its call has waited for, or what it
keeps while the window of the last success is open. -/
theorem handOuts_run (p : Profile) (handles : ℕ) (events : List Event) (event : Event) :
    let before := (fresh (.ofProfile p) handles).run events
    HandOuts p before.1 before.2 ((fresh (.ofProfile p) handles).committed events) event := by
  intro before
  have hbefore := sourced_run p handles events
  refine ⟨fun call handle pair hway hmem => hbefore.handed hway hmem, ?_⟩
  intro hpast call handle hway hfree
  rcases before.1.begin_cases hway hfree with ⟨pair, hstored, -⟩ | ⟨-, hjoins, -⟩
  · have hopen := (stored?_eq_some_iff.mp hstored).1
    have hexpired : before.1.isExpired = true := hbefore.recorded.isExpired_of_past hpast
    simp [hopen] at hexpired
  · exact hjoins

/-- The pair itself may be older than a span, in either way: a handle hands out what it was given
1500 milliseconds ago because another one has been given a later pair since, and a follower picks up
late what its refresh came to that long ago. -/
theorem handed_past_span :
    let p : Profile :=
      ⟨"http://vault.test:8200", "root", "secret/aws", "ak", "sk", 1000, 5000, 5000, none, true⟩
    let secret : String → String → Secret := fun access hidden =>
      [("ak", .text access), ("sk", .text hidden)]
    let call : ℕ → ℕ → Call := fun number handle => ⟨number, 1, .handle handle⟩
    let renewed : List Event :=
      [.refresh (.join (call 0 0)), .refresh (.answer (call 0 0) (.secret (secret "AKIA1" "S1"))),
        .refresh (.advance 1500), .refresh (.join (call 1 1)),
        .refresh (.answer (call 1 1) (.secret (secret "AKIA2" "S2")))]
    let delayed : List Event :=
      [.refresh (.join (call 0 0)), .refresh (.join (call 1 1)),
        .refresh (.answer (call 0 0) (.secret (secret "AKIA1" "S1"))), .refresh (.advance 1500)]
    let isPast : List Event → Event → Call → Prop := fun events event asked =>
      let before := (fresh (.ofProfile p) 2).run events
      .returned asked (.pair ⟨"AKIA1", "S1", KeyPair.vaultProvider⟩) ∈ (before.1.step event).2 ∧
        ∀ k ∈ (fresh (.ofProfile p) 2).committed (events ++ [event]),
          k.pair? p = some ⟨"AKIA1", "S1", KeyPair.vaultProvider⟩ →
            k.time + p.ttl < before.1.cache.now
    isPast renewed (.refresh (.join (call 2 0))) (call 2 0) ∧
      isPast delayed (.refresh (.wake (call 1 1))) (call 1 1) := by
  decide

end Provider

end FreshKeys.Refresh
