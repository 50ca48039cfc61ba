import FreshKeys.Proofs.Refresh.Incidents
import FreshKeys.Proofs.Refresh.Seating

/-!
# The journal gives an account of the refreshes

What a cache writes into the journal follows from what happens to it. Every refresh has a block of
lines: one is written when its read begins, the others when it ends, and they say what it came to
and how many have followed it. A line of its own says that all of these had been given up by then.
The blocks stand in the order of the refreshes, and only the last one can lack its end, as long as
somebody is waiting.
-/

namespace FreshKeys.Refresh

open Account (effects lines attending joined closing opening blocks)

namespace Cache

/-- The incidents of a run. -/
def incidents (c : Cache) (events : List Event) : List Incident :=
  c.along (fun c event => [⟨event, (c.step event).2⟩]) events

/-- What the incidents of a run led to is what the run led to. -/
theorem effects_incidents (c : Cache) (events : List Event) :
    effects (c.incidents events) = (c.run events).2 := by
  rw [run_effects]
  induction events generalizing c with
  | nil => rfl
  | cons event rest ih =>
    have hrest := ih (c.step event).1
    simpa [incidents, along, effects] using hrest

/-- A call that is given up leaves its seat, if it has one. -/
theorem Coherent.seats_of_drop {c : Cache} (h : Coherent c) (call : Call) :
    (c.step (.drop call)).1.seats = (c.leave call).seats := by
  cases hfree : c.seat? call with
  | none =>
    have hkept : c.seats.filter (fun s => s.call != call) = c.seats :=
      List.filter_eq_self.mpr fun s hs => by simpa using seat?_eq_none_iff.mp hfree s hs
    simp [Cache.step, hfree, Cache.leave, hkept]
  | some seat =>
    obtain ⟨hseat, rfl⟩ := mem_of_seat? hfree
    exact h.seats_drop hseat

/-- What incidents tell of the refresh in flight: who follows it, and who leads it. -/
structure Observed (c : Cache) (past : List Incident) : Prop where
  followed : ∀ cycle, c.cohort.signal = some cycle →
    attending cycle past = (c.followers cycle).map Seat.call
  led : ∀ s ∈ c.leaders, Account.leader? s.cycle past = some s.call

/-- As many follow the refresh in flight as have joined it. -/
theorem Counted.followers_eq {c : Cache} {effects : List Effect} (h : Counted c effects)
    {cycle : ℕ} (hsignal : c.cohort.signal = some cycle) :
    c.cohort.followers = effects.countP (Effect.isFollowerOf cycle) := by
  have := h.waiting cycle hsignal
  simp only [Cohort.followers]
  omega

/-- The refresh of a leader has not ended. -/
theorem Counted.not_ended {c : Cache} {effects : List Effect} (h : Counted c effects)
    (hcoherent : Coherent c) {seat : Seat} (hleader : seat ∈ c.leaders) :
    seat.cycle ∉ effects.filterMap Effect.ended? := by
  obtain ⟨hseat, hleads⟩ := mem_leaders.mp hleader
  simp [h.ended, (hcoherent.of_leader hseat hleads).1]

namespace Observed

variable {c c' : Cache} {past : List Incident} {event : Event} {new : List Effect}

/-- Nobody has come to an empty cache. -/
theorem fresh (terms : Terms) (accessKeyName secretKeyName : String) :
    Observed (.fresh terms accessKeyName secretKeyName) [] where
  followed _ h := by cases h
  led _ hs := absurd hs List.not_mem_nil

/-- Whoever leads has been seen to begin its refresh. -/
theorem led_move (h : Observed c past) (hcoherent : Coherent c)
    (hcounted : Counted c (effects past)) (hmove : Move c event c' new) {s : Seat}
    (hs : s ∈ c'.leaders) : Account.leader? s.cycle (past ++ [⟨event, new⟩]) = some s.call := by
  rw [Account.leader?, Account.effects_append, List.findSome?_append]
  have hold : ∀ s ∈ c.leaders, ((effects past).findSome? (Effect.leaderOf? s.cycle)).or
      (new.findSome? (Effect.leaderOf? s.cycle)) = some s.call := by
    intro s hs
    have hfirst : (effects past).findSome? (Effect.leaderOf? s.cycle) = some s.call := h.led s hs
    rw [hfirst, Option.some_or]
  cases hmove with
  | still => exact hold s hs
  | lead call hfree hidle =>
    have hnone : c.leaders = [] := (hcoherent.idle (hcoherent.signal_eq_none hidle)).2
    have hnew : s = ⟨call, c.cycles.length, .leader, 0⟩ := by
      rw [leaders, List.filter_append] at hs
      rw [leaders] at hnone
      simpa [hnone] using hs
    have hfirst : (effects past).findSome? (Effect.leaderOf? c.cycles.length) = none := by
      refine List.findSome?_eq_none_iff.mpr fun e he => ?_
      cases e with
      | joined k role cycle =>
        have hlt := hcounted.known k role cycle he
        cases role <;> simp [Effect.leaderOf?, Nat.ne_of_lt hlt]
      | _ => rfl
    simp [hnew, hfirst, Effect.leaderOf?]
  | follow call cycle => exact hold s (by simpa [leaders] using hs)
  | @finish _ seat outcome tracked window rest hseat hleads =>
    rw [(hcoherent.update c.now tracked window).leaders_finish hseat hleads] at hs
    exact absurd hs List.not_mem_nil
  | receive hseat hfollows => exact hold s (hcoherent.leaders_leave hseat hfollows ▸ hs)
  | leave hseat hfollows => exact hold s (hcoherent.leaders_leave hseat hfollows ▸ hs)
  | advance => exact hold s hs

/-- When a call is given up, all others go on attending. -/
theorem followed_drop (h : Observed c past) (hcoherent : Coherent c) (call : Call) {cycle : ℕ}
    (hsignal : (c.step (.drop call)).1.cohort.signal = some cycle) :
    attending cycle (past ++ [⟨.drop call, (c.step (.drop call)).2⟩]) =
      ((c.step (.drop call)).1.followers cycle).map Seat.call := by
  have hseats := hcoherent.seats_of_drop call
  have hmove := step_move c (.drop call)
  generalize (c.step (.drop call)).1 = c', (c.step (.drop call)).2 = new at hsignal hseats hmove ⊢
  have hsame : c.cohort.signal = some cycle ∧ new = [] := by
    cases hmove with
    | still => exact ⟨hsignal, rfl⟩
    | finish => cases hsignal
    | leave => exact ⟨hsignal, rfl⟩
  obtain ⟨hbefore, rfl⟩ := hsame
  have hleft : c'.followers cycle = (c.followers cycle).filter fun s => s.call != call := by
    simp only [followers, hseats, Cache.leave, List.filter_filter, Bool.and_comm]
  rw [Account.attending_append, h.followed cycle hbefore, hleft]
  simp [Incident.attend, Incident.drops, List.filter_map, Function.comp_def, bne, BEq.comm]

/-- When no call is given up, whoever joins attends as well, and nobody leaves a refresh that is in
flight. -/
theorem followed_move (h : Observed c past) (hcoherent : Coherent c)
    (hcounted : Counted c (effects past)) (hmove : Move c event c' new)
    (hkept : ∀ call, event ≠ .drop call) {cycle : ℕ} (hsignal : c'.cohort.signal = some cycle) :
    attending cycle (past ++ [⟨event, new⟩]) = (c'.followers cycle).map Seat.call := by
  have hattend : attending cycle (past ++ [⟨event, new⟩]) =
      attending cycle past ++ new.filterMap (Effect.followerOf? cycle) := by
    have hstays : ∀ call, (⟨event, new⟩ : Incident).drops call = false := by
      intro call
      cases event with
      | drop other => exact absurd rfl (hkept other)
      | _ => rfl
    simp [Account.attending_append, Incident.attend, hstays]
  rw [hattend]
  cases hmove with
  | still => simpa using h.followed cycle hsignal
  | lead call hfree hidle =>
    obtain rfl : c.cycles.length = cycle := Option.some.inj hsignal
    have hpast : attending c.cycles.length past = [] :=
      Account.attending_eq_nil fun k hmem => absurd (hcounted.known k _ _ hmem) (Nat.lt_irrefl _)
    have hnobody : c.followers c.cycles.length = [] := by
      refine List.eq_nil_iff_forall_not_mem.mpr fun s hs => ?_
      obtain ⟨hs, hfollows, hcycle⟩ := mem_followers.mp hs
      exact absurd (hcoherent.cycle_lt hs hfollows) (by omega)
    simp only [followers] at hnobody
    simp [hpast, followers, hnobody, Effect.followerOf?]
  | follow call k hfree hbusy =>
    obtain rfl : k = cycle := Option.some.inj hsignal
    simp [h.followed k hbusy, followers, Effect.followerOf?]
  | finish => cases hsignal
  | @receive seat receipt hseat hfollows hreceipt =>
    -- whoever is given its outcome belongs to a refresh that is over
    have hother : seat.cycle ≠ cycle := by
      rintro rfl
      rcases hcoherent.receipt?_cases hseat hfollows with ⟨-, hnone⟩ | ⟨sent, hchannel, -⟩
      · simp [hreceipt] at hnone
      · simp [(hcoherent.busy _ hsignal).silent, Channel.opened] at hchannel
    have hfollowers : (c.leave seat.call).followers cycle = c.followers cycle := by
      rw [followers, Cache.leave, List.filter_filter, followers]
      refine List.filter_congr fun s hs => ?_
      by_cases hcall : s.call = seat.call
      · simp [hcoherent.eq_of_call_eq hs hseat hcall, hother]
      · simp [hcall]
    have hnobody : [Effect.returned seat.call receipt.outcome].filterMap
        (Effect.followerOf? cycle) = [] := rfl
    rw [hfollowers, hnobody, List.append_nil]
    exact h.followed cycle hsignal
  | @leave seat => exact absurd rfl (hkept seat.call)
  | advance =>
    rw [List.filterMap_nil, List.append_nil]
    exact h.followed cycle hsignal

/-- What is observed goes on being so. -/
theorem step (h : Observed c past) (hcoherent : Coherent c) (hcounted : Counted c (effects past))
    (event : Event) : Observed (c.step event).1 (past ++ [⟨event, (c.step event).2⟩]) := by
  have hmove := step_move c event
  refine ⟨fun cycle hsignal => ?_, fun s hs => h.led_move hcoherent hcounted hmove hs⟩
  by_cases hdrop : ∃ call, event = .drop call
  · obtain ⟨call, rfl⟩ := hdrop
    exact h.followed_drop hcoherent call hsignal
  · exact h.followed_move hcoherent hcounted hmove (fun call heq => hdrop ⟨call, heq⟩) hsignal

end Observed

/-- A read that comes to something is not given up. -/
theorem Fetched.drops_eq {c : Cache} {seat : Seat} {event : Event}
    {fetched : Except Failure Secret} (h : Fetched c seat event fetched) (new : List Effect)
    (call : Call) : (⟨event, new⟩ : Incident).drops call = false := by
  cases h <;> rfl

/-- The note at the end of a refresh is its last line. -/
theorem line_ending (followers : ℕ) (outcome : Outcome) :
    (Cache.ending followers outcome).line = Account.verdict false followers outcome := by
  cases outcome <;> rfl

namespace Observed

variable {c c' : Cache} {past : List Incident} {event : Event} {new : List Effect}

/-- The last line of a refresh tells whether its leader is given up now. -/
theorem verdict_ending (h : Observed c past) {seat : Seat} (hleader : seat ∈ c.leaders)
    {outcome : Outcome} {tracked : TrackedPair} {window : Window} {rest : List Effect}
    (hending : Ending c seat event outcome tracked window rest) (new : List Effect) :
    (rest.filterMap Effect.note?).map Note.line =
      [Account.verdict ((Account.leader? seat.cycle past).any
        (⟨event, new⟩ : Incident).drops) c.cohort.followers outcome] := by
  rw [h.led seat hleader, Option.any_some]
  cases hending with
  | taken hfetched => simp [hfetched.drops_eq, Effect.note?, line_ending]
  | refused hfetched => simp [hfetched.drops_eq, Effect.note?, line_ending]
  | failed hfetched => simp [hfetched.drops_eq, Effect.note?, line_ending]
  | cancelled => simp [Incident.drops, Effect.note?, Note.line, Account.verdict]

/-- That all followers have gone is written if there were some, and none of them attends. -/
theorem lines_abandonment (h : Observed c past) (hcounted : Counted c (effects past)) {cycle : ℕ}
    (hsignal : c.cohort.signal = some cycle) :
    (c.abandonment.filterMap Effect.note?).map Note.line =
      if 0 < joined cycle past && (attending cycle past).isEmpty then
        [Account.desertion (joined cycle past)]
      else [] := by
  have hjoined : c.cohort.followers = joined cycle past := hcounted.followers_eq hsignal
  have hgone : c.isFollowed cycle = !(attending cycle past).isEmpty := by
    rw [h.followed cycle hsignal, Bool.eq_iff_iff, isFollowed_iff]
    simp
  simp only [abandonment, hsignal, hjoined, hgone, Bool.not_not]
  split <;> rfl

/-- The lines of a refresh's end are those that what happened before it gives. -/
theorem lines_finish (h : Observed c past) (hcoherent : Coherent c)
    (hcounted : Counted c (effects past)) {seat : Seat} (hleader : seat ∈ c.leaders)
    {outcome : Outcome} {tracked : TrackedPair} {window : Window} {rest : List Effect}
    (hending : Ending c seat event outcome tracked window rest) :
    lines [⟨event, c.abandonment ++ .finished seat.cycle outcome c.cohort.followers :: rest⟩] =
      Account.ending seat.cycle past
        ⟨event, c.abandonment ++ .finished seat.cycle outcome c.cohort.followers :: rest⟩
        outcome := by
  obtain ⟨hseat, hleads⟩ := mem_leaders.mp hleader
  have hsignal := (hcoherent.of_leader hseat hleads).1
  have hjoined : c.cohort.followers = joined seat.cycle past := hcounted.followers_eq hsignal
  rw [Account.ending, ← h.lines_abandonment hcounted hsignal, ← hjoined,
    ← h.verdict_ending hleader hending]
  simp [lines, effects, Effect.note?, List.filterMap_cons]

end Observed

/-- An event begins a refresh, or ends the one in flight, or does neither; in the last case nothing
is written. -/
theorem Coherent.phases {c c' : Cache} (h : Coherent c) {event : Event} {new : List Effect}
    (hmove : Move c event c' new) :
    (c.cohort.signal = none ∧ c'.cycles.length = c.cycles.length + 1 ∧
        new.filterMap Effect.read? = [c.terms.path] ∧ new.filterMap Effect.ended? = [] ∧
        new.filterMap Effect.note? = [.refreshing c.terms.path]) ∨
      (∃ seat ∈ c.leaders, ∃ outcome tracked window rest,
        Ending c seat event outcome tracked window rest ∧
        new = c.abandonment ++ .finished seat.cycle outcome c.cohort.followers :: rest ∧
        c'.cycles.length = c.cycles.length ∧ seat.cycle + 1 = c.cycles.length ∧
        new.filterMap Effect.read? = [] ∧ new.filterMap Effect.ended? = [seat.cycle]) ∨
      (c'.cycles.length = c.cycles.length ∧ new.filterMap Effect.read? = [] ∧
        new.filterMap Effect.ended? = [] ∧ new.filterMap Effect.note? = []) := by
  cases hmove with
  | still => exact Or.inr (Or.inr ⟨rfl, rfl, rfl, rfl⟩)
  | lead call hfree hidle =>
    exact Or.inl ⟨h.signal_eq_none hidle, by simp, rfl, rfl, rfl⟩
  | follow => exact Or.inr (Or.inr ⟨rfl, rfl, rfl, rfl⟩)
  | @finish _ seat outcome tracked window rest hseat hleads hending =>
    have hsignal := (h.of_leader hseat hleads).1
    have hquiet : (c.abandonment ++ .finished seat.cycle outcome c.cohort.followers ::
        rest).filterMap Effect.read? = [] := by
      refine List.filterMap_eq_nil_iff.mpr fun e he => ?_
      by_cases haside : e.isAside = true
      · exact Effect.read?_eq_none haside
      · rw [hending.eq_finished he (by simpa using haside)]
        rfl
    refine Or.inr (Or.inl ⟨seat, mem_leaders.mpr ⟨hseat, hleads⟩, outcome, tracked, window, rest,
      hending, rfl, ?_, (h.busy _ hsignal).last, hquiet, c.ended_over _ _ _ hending.asides⟩)
    simp [Cache.leave, Cache.finish, hsignal]
  | receive => exact Or.inr (Or.inr ⟨rfl, rfl, rfl, rfl⟩)
  | leave => exact Or.inr (Or.inr ⟨rfl, rfl, rfl, rfl⟩)
  | advance => exact Or.inr (Or.inr ⟨rfl, rfl, rfl, rfl⟩)

namespace Observed

variable {c c' : Cache} {past : List Incident} {event : Event} {new : List Effect}

/-- A line is written when a read begins, and the rest when a refresh ends. -/
theorem lines_move (h : Observed c past) (hcoherent : Coherent c)
    (hcounted : Counted c (effects past)) (hmove : Move c event c' new) :
    lines [⟨event, new⟩] = (new.filterMap Effect.read?).map opening ++
      (new.filterMap Effect.ended?).flatMap fun cycle => closing cycle (past ++ [⟨event, new⟩]) := by
  rcases hcoherent.phases hmove with ⟨-, -, hreads, hended, hnotes⟩ |
    ⟨seat, hleader, outcome, tracked, window, rest, hending, rfl, -, -, hreads, hended⟩ |
    ⟨-, hreads, hended, hnotes⟩
  · simp [lines, effects, hreads, hended, hnotes, opening, Note.line]
  · have hunended := hcounted.not_ended hcoherent hleader
    have hquiet : c.abandonment.findSome? (Effect.outcomeOf? seat.cycle) = none := by
      refine List.findSome?_eq_none_iff.mpr fun e he => ?_
      rw [mem_abandonment he]
      rfl
    have houtcome : Incident.outcome? seat.cycle
        ⟨event, c.abandonment ++ .finished seat.cycle outcome c.cohort.followers :: rest⟩ =
          some outcome := by
      simp [Incident.outcome?, List.findSome?_append, hquiet, Effect.outcomeOf?]
    rw [hreads, hended, h.lines_finish hcoherent hcounted hleader hending, List.map_nil,
      List.nil_append, List.flatMap_singleton, Account.closing_append_of_unended hunended, houtcome]
  · simp [lines, effects, hreads, hended, hnotes]

end Observed

/-- The blocks go on as the refreshes do. -/
theorem Observed.blocks_move {c c' : Cache} {past : List Incident} {event : Event}
    {new : List Effect} (h : Observed c past) (hcoherent : Coherent c)
    (hcounted : Counted c (effects past)) (hmove : Move c event c' new)
    (hblocks : lines past = blocks c.terms.path c.cycles.length past) :
    lines (past ++ [⟨event, new⟩]) =
      blocks c.terms.path c'.cycles.length (past ++ [⟨event, new⟩]) := by
  rw [Account.lines_append, hblocks, h.lines_move hcoherent hcounted hmove]
  rcases hcoherent.phases hmove with ⟨hidle, hlength, hreads, hended, -⟩ |
    ⟨seat, hleader, outcome, tracked, window, rest, -, -, hlength, hlast, hreads, hended⟩ |
    ⟨hlength, hreads, hended, -⟩
  · have hopen : closing c.cycles.length (past ++ [⟨event, new⟩]) = [] := by
      rw [Account.closing_eq_nil_iff, Account.effects_append, List.filterMap_append, hended,
        hcounted.ended, hidle]
      simp
    have hkept := Account.blocks_append c.terms.path c.cycles.length past ⟨event, new⟩
      (by simp [hended])
    rw [hreads, hended, hlength, Account.blocks_succ, hkept, hopen]
    simp
  · have hopen : closing seat.cycle past = [] :=
      Account.closing_eq_nil_iff.mpr (hcounted.not_ended hcoherent hleader)
    have hkept := Account.blocks_append c.terms.path seat.cycle past ⟨event, new⟩
      (by simpa [hended] using fun _ => Nat.ne_of_lt)
    rw [hreads, hended, hlength, ← hlast, Account.blocks_succ, Account.blocks_succ, hkept, hopen]
    simp
  · have hkept := Account.blocks_append c.terms.path c.cycles.length past ⟨event, new⟩
      (by simp [hended])
    rw [hreads, hended, hlength, hkept]
    simp

/-- What closes the block of a refresh: that its leader is given up, or that the read it leads is
answered or has used up its time. -/
inductive Closes (c : Cache) (cycle : ℕ) (leader : Call) : Event → Prop where
  | drop : Closes c cycle leader (.drop leader)
  | answer (reply : Reply) : Closes c cycle leader (.answer leader reply)
  | timeOut (hdue : c.isDue cycle = true) : Closes c cycle leader (.timeOut leader)

/-- A read that comes to something closes the block. -/
theorem Fetched.closes {c : Cache} {seat : Seat} {event : Event}
    {fetched : Except Failure Secret} (h : Fetched c seat event fetched) :
    Closes c seat.cycle seat.call event := by
  cases h with
  | answer reply => exact .answer reply
  | timeOut hdue => exact .timeOut hdue

/-- Nothing but that ends a refresh. -/
theorem Ending.closes {c : Cache} {seat : Seat} {event : Event} {outcome : Outcome}
    {tracked : TrackedPair} {window : Window} {rest : List Effect}
    (h : Ending c seat event outcome tracked window rest) :
    Closes c seat.cycle seat.call event := by
  cases h with
  | taken hfetched => exact hfetched.closes
  | refused hfetched => exact hfetched.closes
  | failed hfetched => exact hfetched.closes
  | cancelled => exact .drop

/-- A leader that takes in what was fetched ends its refresh, whatever that was. -/
theorem ended_commit (c : Cache) (seat : Seat) (fetched : Except Failure Secret) :
    (c.commit seat fetched).2.filterMap Effect.ended? = [seat.cycle] :=
  c.ended_over _ _ _ (by simp [Effect.isAside])

/-- A leader that is given up ends its refresh. -/
theorem ended_cancel (c : Cache) (seat : Seat) :
    (c.cancel seat).2.filterMap Effect.ended? = [seat.cycle] :=
  c.ended_over _ _ _ (by simp [Effect.isAside])

/-- What closes a block ends the refresh at once. -/
theorem Coherent.ended_of_closes {c : Cache} (h : Coherent c) {seat : Seat}
    (hleader : seat ∈ c.leaders) {event : Event} (hcloses : Closes c seat.cycle seat.call event) :
    (c.step event).2.filterMap Effect.ended? = [seat.cycle] := by
  obtain ⟨hseat, hleads⟩ := mem_leaders.mp hleader
  have hfound : c.seatAs? .leader seat.call = some seat := hleads ▸ h.seatAs?_eq hseat
  cases hcloses with
  | drop =>
    simp only [Cache.step, h.seat?_eq hseat, hleads]
    exact c.ended_cancel seat
  | answer reply =>
    simp only [Cache.step, hfound]
    exact c.ended_commit seat _
  | timeOut hdue =>
    simp only [Cache.step, hfound, hdue, if_true]
    exact c.ended_commit seat _

/-- The message of a last line tells a refresh whose leader was given up from all others. -/
theorem message_verdict_iff {isCancelled : Bool} {followers : ℕ} {outcome : Outcome} :
    (Account.verdict isCancelled followers outcome).message = "credential refresh cancelled" ↔
      isCancelled = true := by
  cases isCancelled with
  | true => simp [Account.verdict]
  | false => cases outcome <;> simp [Account.verdict]

namespace Observed

variable {c : Cache} {past : List Incident}

/-- An open block is closed by what its leader meets, and by nothing else. -/
theorem closing_ne_nil_iff (h : Observed c past) (hcoherent : Coherent c)
    (hcounted : Counted c (effects past)) {seat : Seat} (hleader : seat ∈ c.leaders)
    (event : Event) :
    closing seat.cycle (past ++ [⟨event, (c.step event).2⟩]) ≠ [] ↔
      Closes c seat.cycle seat.call event := by
  have hopen := hcounted.not_ended hcoherent hleader
  have hends : closing seat.cycle (past ++ [⟨event, (c.step event).2⟩]) ≠ [] ↔
      seat.cycle ∈ (c.step event).2.filterMap Effect.ended? := by
    rw [ne_eq, Account.closing_eq_nil_iff, not_not, Account.effects_append, List.filterMap_append,
      List.mem_append]
    exact or_iff_right hopen
  rw [hends]
  constructor
  · intro hmem
    rcases hcoherent.phases (step_move c event) with ⟨-, -, -, hended, -⟩ |
      ⟨other, hother, outcome, tracked, window, rest, hending, -, -, -, -, hended⟩ |
      ⟨-, -, hended, -⟩
    · simp [hended] at hmem
    · -- whoever ends the refresh has been seen to begin it, so it is the leader
      have hcycle : seat.cycle = other.cycle := by simpa [hended] using hmem
      have hcall : seat.call = other.call := by
        have hfirst := h.led other hother
        rw [← hcycle, h.led seat hleader] at hfirst
        exact Option.some.inj hfirst
      rw [hcycle, hcall]
      exact hending.closes
    · simp [hended] at hmem
  · intro hcloses
    rw [hcoherent.ended_of_closes hleader hcloses]
    exact List.mem_singleton_self seat.cycle

/-- The last line of a block says that the refresh was cancelled exactly if its leader is given up
then. -/
theorem cancelled_iff (h : Observed c past) (hcoherent : Coherent c)
    (hcounted : Counted c (effects past)) {seat : Seat} (hleader : seat ∈ c.leaders)
    (event : Event) :
    (closing seat.cycle (past ++ [⟨event, (c.step event).2⟩])).getLast?.map Line.message =
        some "credential refresh cancelled" ↔
      event = .drop seat.call := by
  have hopen := hcounted.not_ended hcoherent hleader
  have hcloses := h.closing_ne_nil_iff hcoherent hcounted hleader event
  rw [Account.closing_append_of_unended hopen] at hcloses ⊢
  cases houtcome : Incident.outcome? seat.cycle ⟨event, (c.step event).2⟩ with
  | none =>
    simp only [houtcome, ne_eq, not_true_eq_false, false_iff] at hcloses
    simp only [List.getLast?_nil, Option.map_none, reduceCtorEq, false_iff]
    rintro rfl
    exact hcloses .drop
  | some outcome =>
    have hdrops : (Account.leader? seat.cycle past).any
        (⟨event, (c.step event).2⟩ : Incident).drops = true ↔ event = .drop seat.call := by
      rw [h.led seat hleader, Option.any_some]
      cases event <;> simp [Incident.drops]
    simp only [Account.ending, List.getLast?_concat, Option.map_some, Option.some.injEq,
      message_verdict_iff, hdrops]

end Observed

/-- The journal of a cache of a profile, told from what has happened to it and what may happen
next. -/
structure Accounted (p : Profile) (c : Cache) (past : List Incident) : Prop where
  /-- It is a block for each refresh, in their order. -/
  blocks : lines past = blocks p.secretPath c.cycles.length past
  /-- As many blocks have been opened as reads have begun. -/
  opened : (lines past).countP Account.isOpening = ((effects past).filterMap Effect.read?).length
  begun : ((effects past).filterMap Effect.read?).length = c.cycles.length
  /-- All but the last have been closed, and a block is open while somebody waits. -/
  closed : ∀ cycle, cycle + 1 < c.cycles.length → closing cycle past ≠ []
  open_iff : (∃ cycle < c.cycles.length, closing cycle past = []) ↔ 0 < c.cohort.waiters
  /-- What is written at an event: a line when a read begins, and the rest when a refresh ends. -/
  written : ∀ event,
    let m : Incident := ⟨event, (c.step event).2⟩
    lines [m] = (m.effects.filterMap Effect.read?).map opening ++
      (m.effects.filterMap Effect.ended?).flatMap fun cycle => closing cycle (past ++ [m])
  /-- The pair of a refresh that succeeds is what the cache holds from then on. -/
  committed : ∀ event cycle pair followers,
    .finished cycle (.pair pair) followers ∈ (c.step event).2 → (c.step event).1.snapshot = pair
  /-- An open block has a leader. It is closed by what the leader meets and by nothing else, and
  its last line says that the refresh was cancelled exactly if the leader is given up. -/
  ends : ∀ cycle < c.cycles.length, closing cycle past = [] →
    ∃ leader, Account.leader? cycle past = some leader ∧ ∀ event,
      let closed := closing cycle (past ++ [⟨event, (c.step event).2⟩])
      (closed ≠ [] ↔ Closes c cycle leader event) ∧
        (closed.getLast?.map Line.message = some "credential refresh cancelled" ↔
          event = .drop leader)

/-- A refresh that succeeds leaves its pair in the cache. -/
theorem Move.snapshot_of_finished {c c' : Cache} {event : Event} {new : List Effect}
    (hmove : Move c event c' new) {cycle followers : ℕ} {pair : KeyPair}
    (hmem : .finished cycle (.pair pair) followers ∈ new) : c'.snapshot = pair := by
  obtain ⟨seat, -, -, tracked, window, rest, hending, rfl, -⟩ := hmove.ending_of_finished hmem
  generalize houtcome : Outcome.pair pair = outcome at hending
  cases hending with
  | taken =>
    rw [Outcome.pair.inj houtcome]
    rfl
  | refused => cases houtcome
  | failed => cases houtcome
  | cancelled => cases houtcome

/-- What is told of a run before one event is told of it after the event. -/
theorem observed_run (p : Profile) (events : List Event) :
    let c := ((ofProfile p).run events).1
    let past := (ofProfile p).incidents events
    Coherent c ∧ Counted c (effects past) ∧ Observed c past ∧ c.terms.path = p.secretPath ∧
      lines past = blocks c.terms.path c.cycles.length past := by
  refine along_induction (fun c event => [(⟨event, (c.step event).2⟩ : Incident)])
    (P := fun c past => Coherent c ∧ Counted c (effects past) ∧ Observed c past ∧
      c.terms.path = p.secretPath ∧ lines past = blocks c.terms.path c.cycles.length past)
    ?_ (ofProfile p) []
    ⟨Coherent.fresh _ _ _, Counted.fresh _ _ _, Observed.fresh _ _ _, rfl, rfl⟩ events
  rintro c past event ⟨hcoherent, hcounted, hobserved, hpath, hblocks⟩
  have hmove := step_move c event
  have hterms := hmove.terms_eq.1
  refine ⟨hcoherent.step event, ?_, hobserved.step hcoherent hcounted event, hterms ▸ hpath, ?_⟩
  · rw [Account.effects_append]
    exact hcounted.move hcoherent hmove
  · rw [hterms]
    exact hobserved.blocks_move hcoherent hcounted hmove hblocks

/-- Every run is accounted for in the journal. -/
theorem accounted_run (p : Profile) (events : List Event) :
    Accounted p ((ofProfile p).run events).1 ((ofProfile p).incidents events) := by
  obtain ⟨hcoherent, hcounted, hobserved, hpath, hblocks⟩ := observed_run p events
  generalize ((ofProfile p).run events).1 = c at hcoherent hcounted hobserved hpath hblocks ⊢
  generalize (ofProfile p).incidents events = past at hcounted hobserved hblocks ⊢
  have hreads : ((effects past).filterMap Effect.read?).length = c.cycles.length := by
    rw [hcounted.reads, List.length_replicate]
  have hopen : ∀ cycle, closing cycle past = [] ↔ c.cohort.signal.getD c.cycles.length ≤ cycle := by
    intro cycle
    rw [Account.closing_eq_nil_iff, hcounted.ended, List.mem_range, Nat.not_lt]
  constructor
  case blocks => rw [← hpath, hblocks]
  case opened => rw [hblocks, Account.countP_blocks, hreads]
  case begun => exact hreads
  case closed =>
    intro cycle hcycle
    rw [ne_eq, hopen]
    cases hsignal : c.cohort.signal with
    | none =>
      rw [Option.getD_none]
      omega
    | some k =>
      have := (hcoherent.busy k hsignal).last
      rw [Option.getD_some]
      omega
  case open_iff =>
    simp only [hopen, hcoherent.waiters_pos_iff]
    cases hsignal : c.cohort.signal with
    | none =>
      simp only [Option.getD_none, Option.isSome_none, Bool.false_eq_true, iff_false]
      rintro ⟨cycle, hlt, hle⟩
      omega
    | some k =>
      have := (hcoherent.busy k hsignal).last
      simp only [Option.getD_some, Option.isSome_some, iff_true]
      exact ⟨k, by omega, Nat.le_refl k⟩
  case written => exact fun event => hobserved.lines_move hcoherent hcounted (step_move c event)
  case committed =>
    exact fun event cycle pair followers hmem => (step_move c event).snapshot_of_finished hmem
  case ends =>
    intro cycle hlt hclosing
    rw [hopen] at hclosing
    cases hsignal : c.cohort.signal with
    | none =>
      rw [hsignal, Option.getD_none] at hclosing
      omega
    | some k =>
      have hlast := (hcoherent.busy k hsignal).last
      obtain ⟨call, hled⟩ := (hcoherent.busy k hsignal).led
      rw [hsignal, Option.getD_some] at hclosing
      obtain rfl : k = cycle := by omega
      have hleader : ⟨call, k, .leader, 0⟩ ∈ c.leaders := hled ▸ List.mem_singleton_self _
      exact ⟨call, hobserved.led _ hleader, fun event =>
        ⟨hobserved.closing_ne_nil_iff hcoherent hcounted hleader event,
          hobserved.cancelled_iff hcoherent hcounted hleader event⟩⟩

/-- The only follower of a refresh is given up before it succeeds. -/
example :
    let leader : Call := ⟨0, 1, .fetch⟩
    let follower : Call := ⟨1, 1, .fetch⟩
    let secret : Secret := [("ak", .text "AKIA1"), ("sk", .text "S1")]
    lines ((fresh ⟨"secret/aws", 6000, 5000⟩ "ak" "sk").incidents
        [.join leader, .join follower, .drop follower, .answer leader (.secret secret)]) =
      [⟨.debug, "refreshing credentials", [("path", "secret/aws")]⟩,
        ⟨.debug, "all followers left before the refresh finished", [("followers", "1")]⟩,
        ⟨.info, "credentials refreshed", [("access_key_id", "AKIA*"), ("followers", "1")]⟩] := by
  rfl

end Cache

end FreshKeys.Refresh
