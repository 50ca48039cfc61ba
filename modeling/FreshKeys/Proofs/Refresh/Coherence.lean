import FreshKeys.Proofs.Refresh.Moves
import Mathlib.Data.List.Nodup

/-!
# Coherent caches

The counter of a cohort, its channel and the calls that wait are kept apart in a cache, and every
move has to keep them in step. A cache is coherent if its cohort is empty when no refresh is in
flight, if the refresh in flight has one leader and has sent nothing, and if every follower that
waits belongs to the refresh in flight or has its outcome waiting on its channel. Given up
followers stay in the counter, so it is only a bound for those who wait.
-/

namespace FreshKeys.Refresh.Cache

/-- The seats of the calls that lead a refresh. -/
def leaders (c : Cache) : List Seat := c.seats.filter fun s => s.role == .leader

/-- The seats of the calls that wait as followers of a refresh. -/
def followers (c : Cache) (cycle : ℕ) : List Seat :=
  c.seats.filter fun s => s.role == .follower && s.cycle == cycle

/-- The channel of a refresh. -/
def channel? (c : Cache) (cycle : ℕ) : Option (Channel Outcome) :=
  c.cycles[cycle]?.map Cycle.channel

/-- A refresh is in flight: the last that began, with one leader, nothing sent, and all who wait
for it counted. -/
structure InFlight (c : Cache) (cycle : ℕ) : Prop where
  last : cycle + 1 = c.cycles.length
  led : ∃ call, c.leaders = [⟨call, cycle, .leader, 0⟩]
  silent : c.channel? cycle = some .opened
  counted : (c.followers cycle).length < c.cohort.waiters

/-- The counter, the channels and the calls that wait agree. -/
structure Coherent (c : Cache) : Prop where
  calls_nodup : (c.seats.map Seat.call).Nodup
  idle : c.cohort.signal = none → c.cohort.waiters = 0 ∧ c.leaders = []
  busy : ∀ cycle, c.cohort.signal = some cycle → c.InFlight cycle
  placed : ∀ s ∈ c.seats, s.place = 0
  pending : ∀ s ∈ c.seats, s.role = .follower →
    c.cohort.signal = some s.cycle ∨ ∃ outcome, c.channel? s.cycle = some ⟨[outcome], false⟩

/-- The leaders are the seats with that role. -/
theorem mem_leaders {c : Cache} {s : Seat} : s ∈ c.leaders ↔ s ∈ c.seats ∧ s.role = .leader := by
  simp [leaders]

/-- The followers of a refresh are its seats with that role. -/
theorem mem_followers {c : Cache} {cycle : ℕ} {s : Seat} :
    s ∈ c.followers cycle ↔ s ∈ c.seats ∧ s.role = .follower ∧ s.cycle = cycle := by
  simp [followers]

/-- A refresh is followed as long as it has a follower that waits. -/
theorem isFollowed_iff {c : Cache} {cycle : ℕ} :
    c.isFollowed cycle = true ↔ c.followers cycle ≠ [] := by
  simp [isFollowed, followers, List.filter_eq_nil_iff]

/-- A refresh with a channel has begun. -/
theorem lt_of_channel? {c : Cache} {cycle : ℕ} {channel : Channel Outcome}
    (h : c.channel? cycle = some channel) : cycle < c.cycles.length := by
  obtain ⟨k, hk, -⟩ := Option.map_eq_some_iff.mp h
  exact (List.getElem?_eq_some_iff.mp hk).1

/-- What a follower is given is what its channel gives at its place. -/
theorem receipt?_eq (c : Cache) (s : Seat) :
    c.receipt? s = (c.channel? s.cycle).bind fun channel => channel.receive? s.place := by
  rw [receipt?, channel?, Option.bind_map]
  rfl

/-- The outcome of a refresh reaches the channel of that refresh only. -/
theorem channel?_finish (c : Cache) (outcome : Outcome) (cycle : ℕ) :
    (c.finish outcome).channel? cycle =
      if c.cohort.signal = some cycle then
        (c.channel? cycle).map fun channel =>
          (channel.send (decide (0 < c.cohort.followers) && c.isFollowed cycle) outcome).close
      else c.channel? cycle := by
  cases hsignal : c.cohort.signal with
  | none => simp [finish, channel?, hsignal]
  | some k =>
    by_cases hk : k = cycle
    · subst hk
      simp [finish, channel?, hsignal, Cycle.finish, Function.comp_def]
    · simp [finish, channel?, hsignal, hk]

/-- The end of a refresh does not change when reads began. -/
theorem startedAt_finish (c : Cache) (outcome : Outcome) :
    (c.finish outcome).cycles.map Cycle.startedAt = c.cycles.map Cycle.startedAt := by
  cases hsignal : c.cohort.signal with
  | none => simp [finish, hsignal]
  | some cycle =>
    refine List.ext_getElem? fun i => ?_
    simp only [finish, hsignal, List.getElem?_map, List.getElem?_modify]
    by_cases hi : cycle = i
    · cases c.cycles[i]? <;> simp [hi, Cycle.finish]
    · simp [hi]

namespace Coherent

variable {c : Cache}

/-- One call, one seat. -/
theorem eq_of_call_eq (h : Coherent c) {s t : Seat} (hs : s ∈ c.seats) (ht : t ∈ c.seats)
    (hcall : s.call = t.call) : s = t :=
  List.inj_on_of_nodup_map h.calls_nodup hs ht hcall

/-- A call that waits is found at its seat. -/
theorem seatAs?_eq (h : Coherent c) {s : Seat} (hs : s ∈ c.seats) :
    c.seatAs? s.role s.call = some s := by
  have hfound : (c.seatAs? s.role s.call).isSome :=
    List.find?_isSome.mpr ⟨s, hs, by simp⟩
  obtain ⟨t, ht⟩ := Option.isSome_iff_exists.mp hfound
  obtain ⟨hmem, hcall, -⟩ := mem_of_seatAs? ht
  rw [ht, h.eq_of_call_eq hmem hs hcall]

/-- A call that waits is found at its seat, whatever its role. -/
theorem seat?_eq (h : Coherent c) {s : Seat} (hs : s ∈ c.seats) : c.seat? s.call = some s := by
  have hfound : (c.seat? s.call).isSome := List.find?_isSome.mpr ⟨s, hs, by simp⟩
  obtain ⟨t, ht⟩ := Option.isSome_iff_exists.mp hfound
  obtain ⟨hmem, hcall⟩ := mem_of_seat? ht
  rw [ht, h.eq_of_call_eq hmem hs hcall]

/-- A call that leads, leads the refresh in flight, and is alone in it. -/
theorem of_leader (h : Coherent c) {s : Seat} (hs : s ∈ c.seats) (hleads : s.role = .leader) :
    c.cohort.signal = some s.cycle ∧ c.leaders = [s] := by
  have hmem : s ∈ c.leaders := mem_leaders.mpr ⟨hs, hleads⟩
  cases hsignal : c.cohort.signal with
  | none =>
    rw [(h.idle hsignal).2] at hmem
    exact absurd hmem List.not_mem_nil
  | some cycle =>
    obtain ⟨call, hled⟩ := (h.busy cycle hsignal).led
    have heq : s = ⟨call, cycle, .leader, 0⟩ := by simpa [hled] using hmem
    exact ⟨by rw [heq], by rw [hled, heq]⟩

/-- Somebody is counted exactly when a refresh is in flight. -/
theorem waiters_pos_iff (h : Coherent c) : 0 < c.cohort.waiters ↔ c.cohort.signal.isSome := by
  cases hsignal : c.cohort.signal with
  | none => simp [(h.idle hsignal).1]
  | some cycle => simpa using Nat.zero_lt_of_lt (h.busy cycle hsignal).counted

/-- A follower belongs to a refresh that has begun. -/
theorem cycle_lt (h : Coherent c) {s : Seat} (hs : s ∈ c.seats) (hfollows : s.role = .follower) :
    s.cycle < c.cycles.length := by
  rcases h.pending s hs hfollows with hsignal | ⟨outcome, hchannel⟩
  · have := (h.busy _ hsignal).last
    omega
  · exact lt_of_channel? hchannel

/-- A follower waits for the refresh in flight, or is given the outcome of its own. -/
theorem receipt?_cases (h : Coherent c) {s : Seat} (hs : s ∈ c.seats)
    (hfollows : s.role = .follower) :
    (c.cohort.signal = some s.cycle ∧ c.receipt? s = none) ∨
      ∃ outcome, c.channel? s.cycle = some ⟨[outcome], false⟩ ∧
        c.receipt? s = some (.message outcome) := by
  rcases h.pending s hs hfollows with hsignal | ⟨outcome, hchannel⟩
  · refine Or.inl ⟨hsignal, ?_⟩
    simp [receipt?_eq, (h.busy _ hsignal).silent, h.placed s hs]
  · refine Or.inr ⟨outcome, hchannel, ?_⟩
    simp [receipt?_eq, hchannel, h.placed s hs]

/-- An empty cache is coherent. -/
theorem fresh (terms : Terms) (accessKeyName secretKeyName : String) :
    Coherent (.fresh terms accessKeyName secretKeyName) where
  calls_nodup := List.nodup_nil
  idle _ := ⟨rfl, rfl⟩
  busy _ hsignal := by cases hsignal
  placed _ hs := absurd hs List.not_mem_nil
  pending _ hs := absurd hs List.not_mem_nil

/-- A call that sits nowhere can be seated. -/
theorem nodup_append (h : Coherent c) {seat : Seat} (hfree : c.seat? seat.call = none) :
    ((c.seats ++ [seat]).map Seat.call).Nodup := by
  rw [List.map_append, List.map_singleton, List.nodup_append]
  refine ⟨h.calls_nodup, List.nodup_singleton _, ?_⟩
  intro a ha b hb
  obtain ⟨s, hs, rfl⟩ := List.mem_map.mp ha
  rw [List.mem_singleton.mp hb]
  exact seat?_eq_none_iff.mp hfree s hs

/-- A cohort without a channel or without callers has neither. -/
theorem signal_eq_none (h : Coherent c) (hidle : c.cohort.signal = none ∨ c.cohort.waiters = 0) :
    c.cohort.signal = none := by
  rcases hidle with hnone | hzero
  · exact hnone
  · simpa [hzero] using h.waiters_pos_iff

/-- A call that leads begins the next refresh. -/
theorem lead (h : Coherent c) {call : Call} (hfree : c.seat? call = none)
    (hsignal : c.cohort.signal = none) :
    Coherent { c with
      cohort := ⟨1, some c.cycles.length⟩
      cycles := c.cycles ++ [⟨c.now, .opened⟩]
      seats := c.seats ++ [⟨call, c.cycles.length, .leader, 0⟩] } := by
  refine ⟨h.nodup_append hfree, fun hnone => absurd hnone (by simp), ?_, ?_, ?_⟩
  · rintro cycle ⟨rfl⟩
    refine ⟨by simp, ⟨call, ?_⟩, by simp [channel?], ?_⟩
    · have hnil := (h.idle hsignal).2
      simpa [leaders] using hnil
    · -- the refresh is new, so nobody follows it yet
      have hnone : c.followers c.cycles.length = [] := by
        rw [List.eq_nil_iff_forall_not_mem]
        intro s hs
        obtain ⟨hs, hfollows, hcycle⟩ := mem_followers.mp hs
        exact absurd (h.cycle_lt hs hfollows) (by omega)
      simpa [followers] using hnone
  · intro s hs
    rcases List.mem_append.mp hs with hs | hs
    · exact h.placed s hs
    · rw [List.mem_singleton.mp hs]
  · intro s hs hfollows
    rcases List.mem_append.mp hs with hs | hs
    · obtain ⟨outcome, hchannel⟩ := (h.pending s hs hfollows).resolve_left (by simp [hsignal])
      refine Or.inr ⟨outcome, ?_⟩
      have hlt := h.cycle_lt hs hfollows
      simpa [channel?, List.getElem?_append_left hlt] using hchannel
    · rw [List.mem_singleton.mp hs] at hfollows
      cases hfollows

/-- A call that follows waits for the refresh in flight. -/
theorem follow (h : Coherent c) {call : Call} {cycle : ℕ} (hfree : c.seat? call = none)
    (hsignal : c.cohort.signal = some cycle) :
    Coherent { c with
      cohort := ⟨c.cohort.waiters + 1, some cycle⟩
      seats := c.seats ++ [⟨call, cycle, .follower, c.place cycle⟩] } := by
  have hflight := h.busy cycle hsignal
  have hplace : c.place cycle = 0 := by
    obtain ⟨k, hk, hopened⟩ := Option.map_eq_some_iff.mp hflight.silent
    simp [place, hk, hopened, Channel.opened, Channel.subscribe]
  refine ⟨h.nodup_append hfree, fun hnone => absurd hnone (by simp), ?_, ?_, ?_⟩
  · rintro _ ⟨rfl⟩
    refine ⟨hflight.last, ?_, hflight.silent, ?_⟩
    · obtain ⟨leader, hled⟩ := hflight.led
      exact ⟨leader, by simpa [leaders] using hled⟩
    · simpa [followers] using hflight.counted
  · intro s hs
    rcases List.mem_append.mp hs with hs | hs
    · exact h.placed s hs
    · rw [List.mem_singleton.mp hs]
      exact hplace
  · intro s hs hfollows
    rcases List.mem_append.mp hs with hs | hs
    · exact hsignal ▸ h.pending s hs hfollows
    · rw [List.mem_singleton.mp hs]
      exact Or.inl rfl

/-- A follower that stops waiting leaves its leader behind. -/
theorem leaders_leave (h : Coherent c) {seat : Seat} (hseat : seat ∈ c.seats)
    (hfollows : seat.role = .follower) : (c.leave seat.call).leaders = c.leaders := by
  rw [leaders, Cache.leave, List.filter_filter, leaders]
  refine List.filter_congr fun s hs => ?_
  by_cases hcall : s.call = seat.call
  · simp [h.eq_of_call_eq hs hseat hcall, hfollows]
  · simp [hcall]

/-- A follower that stops waiting leaves a coherent cache. -/
theorem leave (h : Coherent c) {seat : Seat} (hseat : seat ∈ c.seats)
    (hfollows : seat.role = .follower) : Coherent (c.leave seat.call) := by
  have hleaders := h.leaders_leave hseat hfollows
  refine ⟨?_, ?_, ?_, fun s hs => h.placed s (List.mem_of_mem_filter hs),
    fun s hs => h.pending s (List.mem_of_mem_filter hs)⟩
  · exact h.calls_nodup.sublist (List.filter_sublist.map _)
  · intro hsignal
    exact ⟨(h.idle hsignal).1, hleaders.trans (h.idle hsignal).2⟩
  · intro cycle hsignal
    have hflight := h.busy cycle hsignal
    refine ⟨hflight.last, hleaders ▸ hflight.led, hflight.silent, ?_⟩
    exact Nat.lt_of_le_of_lt (List.filter_sublist.filter _).length_le hflight.counted

/-- When its leader has finished it, nobody leads the refresh any more. -/
theorem leaders_finish (h : Coherent c) {seat : Seat} (hseat : seat ∈ c.seats)
    (hleads : seat.role = .leader) (outcome : Outcome) :
    ((c.finish outcome).leave seat.call).leaders = [] := by
  rw [List.eq_nil_iff_forall_not_mem]
  intro s hs
  obtain ⟨hs, hrole⟩ := mem_leaders.mp hs
  obtain ⟨hs, hcall⟩ := List.mem_filter.mp hs
  have hmem : s ∈ c.leaders := mem_leaders.mpr ⟨hs, hrole⟩
  rw [(h.of_leader hseat hleads).2, List.mem_singleton] at hmem
  simp [hmem] at hcall

/-- The leader's move empties the cohort, and whoever followed is given the outcome. -/
theorem finish (h : Coherent c) {seat : Seat} (hseat : seat ∈ c.seats)
    (hleads : seat.role = .leader) (outcome : Outcome) :
    Coherent ((c.finish outcome).leave seat.call) := by
  refine ⟨?_, fun _ => ⟨rfl, h.leaders_finish hseat hleads outcome⟩,
    fun _ hbusy => absurd hbusy (by simp [Cache.leave, Cache.finish, Cohort.idle]),
    fun s hs => h.placed s (List.mem_of_mem_filter hs), ?_⟩
  · exact h.calls_nodup.sublist (List.filter_sublist.map _)
  · intro s hs hfollows
    have hs : s ∈ c.seats := List.mem_of_mem_filter hs
    refine Or.inr ?_
    rcases h.pending s hs hfollows with hsame | ⟨sent, hchannel⟩
    · -- the outcome is sent, for this very follower is there to receive it
      have hmem : s ∈ c.followers s.cycle := mem_followers.mpr ⟨hs, hfollows, rfl⟩
      have hfollowed : c.isFollowed s.cycle = true := isFollowed_iff.mpr (List.ne_nil_of_mem hmem)
      have hcounted : 0 < c.cohort.followers := by
        have := List.length_pos_of_mem hmem
        have := (h.busy _ hsame).counted
        simp only [Cohort.followers]
        omega
      refine ⟨outcome, ?_⟩
      change (c.finish outcome).channel? s.cycle = _
      rw [channel?_finish, if_pos hsame, (h.busy _ hsame).silent]
      simp [hfollowed, hcounted, Channel.send, Channel.close, Channel.opened]
    · refine ⟨sent, ?_⟩
      change (c.finish outcome).channel? s.cycle = _
      rw [channel?_finish, if_neg, hchannel]
      intro hsame
      rw [(h.busy _ hsame).silent] at hchannel
      cases hchannel

/-- The time, the pair and the window play no part in coherence. -/
theorem update (h : Coherent c) (now : ℕ) (tracked : TrackedPair) (window : Window) :
    Coherent { c with now, tracked, window } where
  calls_nodup := h.calls_nodup
  idle := h.idle
  busy cycle hsignal :=
    have hflight := h.busy cycle hsignal
    ⟨hflight.last, hflight.led, hflight.silent, hflight.counted⟩
  placed := h.placed
  pending := h.pending

/-- Every move of a coherent cache leads to a coherent cache. -/
theorem move (h : Coherent c) {event : Event} {c' : Cache} {new : List Effect}
    (hmove : Move c event c' new) : Coherent c' := by
  cases hmove with
  | still => exact h
  | lead call hfree hidle => exact h.lead hfree (h.signal_eq_none hidle)
  | follow call cycle hfree hsignal => exact h.follow hfree hsignal
  | @finish _ _ outcome tracked window _ hseat hleads =>
    exact (h.update c.now tracked window).finish hseat hleads outcome
  | receive hseat hfollows => exact h.leave hseat hfollows
  | leave hseat hfollows => exact h.leave hseat hfollows
  | advance span => exact h.update (c.now + span) c.tracked c.window

/-- Every step of a coherent cache leads to a coherent cache. -/
theorem step (h : Coherent c) (event : Event) : Coherent (c.step event).1 :=
  h.move (step_move c event)

/-- Every run from a coherent cache leads to a coherent cache. -/
theorem run (h : Coherent c) (events : List Event) : Coherent (c.run events).1 :=
  run_induction (P := fun c _ => Coherent c) (fun _ hmove h => h.move hmove) h events

/-- A call that finds nobody waiting leads, and its read begins; any other call follows. -/
theorem join_effects (h : Coherent c) {call : Call} (hfree : c.seat? call = none) :
    (c.step (.join call)).2 =
      if c.cohort.waiters = 0 then
        [.joined call .leader c.cycles.length, .noted (.refreshing c.terms.path),
          .readStarted c.terms.path]
      else [.joined call .follower (c.cycles.length - 1)] := by
  simp only [Cache.step, hfree, join]
  rcases cohort_join_cases c.cohort c.cycles.length with
    ⟨hjoin, hidle⟩ | ⟨cycle, hjoin, hsignal, hwaiters⟩
  · rw [if_pos (h.idle (h.signal_eq_none hidle)).1]
    simp [hjoin]
  · rw [if_neg (Nat.ne_of_gt hwaiters)]
    have hcycle : cycle = c.cycles.length - 1 := by
      have := (h.busy cycle hsignal).last
      omega
    simp [hjoin, hcycle]

end Coherent

/-- What every move of a coherent cache keeps of a state and of the effects so far holds after a
run. -/
theorem coherent_run_induction {P : Cache → List Effect → Prop}
    (hmove : ∀ {c event c' new} (effects : List Effect),
      Coherent c → Move c event c' new → P c effects → P c' (effects ++ new))
    {c : Cache} (h : Coherent c) (hstart : P c []) (events : List Event) :
    P (c.run events).1 (c.run events).2 :=
  (run_induction (P := fun c effects => Coherent c ∧ P c effects)
    (fun effects hstep hboth => ⟨hboth.1.move hstep, hmove effects hboth.1 hstep hboth.2⟩)
    ⟨h, hstart⟩ events).2

end FreshKeys.Refresh.Cache
