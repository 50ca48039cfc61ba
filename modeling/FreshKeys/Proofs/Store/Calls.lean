import FreshKeys.Proofs.Refresh.Moves
import FreshKeys.Vault

/-!
# One call of a vault at rest

As long as nobody waits, a call leads a refresh alone unless its handle has a valid pair. It makes
one read, and afterwards the vault is at rest again: time has passed, and what was read has been
taken over if it holds a pair.
-/

namespace FreshKeys

open Refresh (Cache Call Effect Provider)
open Store (Answer Client Exchange)

variable {p : Profile} {c : Cache}

/-- A cache of a profile in which nobody waits. -/
structure Refresh.Cache.AtRest (p : Profile) (c : Cache) : Prop where
  terms : c.terms = (Cache.ofProfile p).terms
  cohort : c.cohort = .idle
  seats : c.seats = []

/-- Nobody waits for an empty cache. -/
theorem Refresh.Cache.AtRest.ofProfile (p : Profile) : (Cache.ofProfile p).AtRest p :=
  ⟨rfl, rfl, rfl⟩

/-- It does not matter what time it is. -/
theorem Refresh.Cache.AtRest.later (h : c.AtRest p) (now : ℕ) : { c with now }.AtRest p :=
  ⟨h.terms, h.cohort, h.seats⟩

/-- It does not matter how many refreshes there have been. -/
theorem Refresh.Cache.AtRest.recount (h : c.AtRest p) (cycles : List Refresh.Cycle) :
    { c with cycles }.AtRest p :=
  ⟨h.terms, h.cohort, h.seats⟩

/-- What is fetched changes the pair and the window only. -/
theorem Refresh.Cache.absorb_fst (c : Cache) (fetched : Except Failure Secret) :
    (c.absorb fetched).1 =
      { c with
        tracked := (c.absorb fetched).1.tracked, window := (c.absorb fetched).1.window } := by
  cases fetched with
  | error failure => rfl
  | ok secret => cases hmerge : c.tracked.merge secret <;> simp [absorb, hmerge]

/-- What is taken over makes nobody wait. -/
theorem Refresh.Cache.AtRest.absorb (h : c.AtRest p) (fetched : Except Failure Secret) :
    (c.absorb fetched).1.AtRest p := by
  rw [Cache.absorb_fst]
  exact ⟨h.terms, h.cohort, h.seats⟩

/-- What is made of what was fetched depends on nothing but the tracked fields. -/
theorem Refresh.Cache.absorb_snd (c d : Cache) (fetched : Except Failure Secret)
    (same : c.tracked = d.tracked) : (c.absorb fetched).2 = (d.absorb fetched).2 := by
  cases fetched with
  | error failure => rfl
  | ok secret =>
    simp only [absorb, same]
    cases d.tracked.merge secret <;> rfl

/-- A failure leaves a cache as it is. -/
theorem Refresh.Cache.absorb_of_failure {fetched : Except Failure Secret} {failure : Failure}
    (failed : (c.absorb fetched).2 = .failure failure) : (c.absorb fetched).1 = c := by
  cases fetched with
  | error failure => rfl
  | ok secret => cases hmerge : c.tracked.merge secret <;> simp_all [absorb]

/-- A pair extends the window. -/
theorem Refresh.Cache.absorb_of_pair {fetched : Except Failure Secret} {pair : KeyPair}
    (taken : (c.absorb fetched).2 = .pair pair) :
    (c.absorb fetched).1.window = c.window.extend c.terms.ttl c.now := by
  cases fetched with
  | error failure => cases taken
  | ok secret => cases hmerge : c.tracked.merge secret <;> simp_all [absorb]

namespace Vault

/-- What the refresh that a call leads fetches: the reply, unless the time is up. -/
def fetched (p : Profile) (exchange : Exchange Secret) : Except Failure Secret :=
  if exchange.elapsed ≤ p.fetchTimeout then exchange.reply.secret? p.secretPath
  else .error (Refresh.timedOut p.fetchTimeout)

/-- What a cache makes of an exchange once it is over. -/
def taken (p : Profile) (c : Cache) (exchange : Exchange Secret) : Cache × Outcome :=
  { c with now := c.now + min exchange.elapsed p.fetchTimeout }.absorb (fetched p exchange)

/-- What an exchange comes to does not depend on when it is over. -/
theorem taken_snd (p : Profile) (c : Cache) (exchange : Exchange Secret) :
    (taken p c exchange).2 = (c.absorb (fetched p exchange)).2 :=
  Cache.absorb_snd _ _ _ rfl

/-- Once the exchange is over, nobody waits. -/
theorem taken_atRest (h : c.AtRest p) (exchange : Exchange Secret) :
    (taken p c exchange).1.AtRest p :=
  (h.later _).absorb _

/-- The cache at an instant in the refresh that a call leads. -/
def led (c : Cache) (call : Call) (now : ℕ) : Cache :=
  { c with
    now
    cohort := ⟨1, some c.cycles.length⟩
    cycles := c.cycles ++ [⟨c.now, .opened⟩]
    seats := [⟨call, c.cycles.length, .leader, 0⟩] }

/-- What a call notes that has to ask, before it reads. -/
def opening (p : Profile) (call : Call) : List Note :=
  (call.way.handle?.map fun _ => Note.retrieving).toList ++ [.refreshing p.secretPath]

/-- A call that asked and came to an outcome. -/
def asked (p : Profile) (call : Call) (exchange : Exchange Secret) (outcome : Outcome) : Turn :=
  ⟨outcome, exchange.request, opening p call ++ exchange.notes ++ [Cache.ending 0 outcome]⟩

/-- What the end of a refresh that nobody follows leads to. -/
def ended (c : Cache) (call : Call) (outcome : Outcome) : List Effect :=
  [.finished c.cycles.length outcome 0, .noted (Cache.ending 0 outcome), .returned call outcome]

/-- A call that is not given a kept pair leads a refresh, and does not return at once. -/
theorem step_join (h : c.AtRest p) {slots : List (Option KeyPair)} {call : Call}
    (unkept : ∀ handle, call.way.handle? = some handle →
      (⟨c, slots⟩ : Provider).stored? handle = none) :
    ∃ effects, (⟨c, slots⟩ : Provider).step (.refresh (.join call)) =
        (⟨led c call c.now, slots⟩, effects) ∧
      effects.findSome? Effect.return? = none ∧
      effects.filterMap Effect.note? = opening p call := by
  have hjoin : c.step (.join call) =
      (led c call c.now, [.joined call .leader c.cycles.length, .noted (.refreshing p.secretPath),
        .readStarted p.secretPath]) := by
    simp only [Cache.step, Cache.seat?, h.seats, List.find?_nil, Cache.join, h.cohort,
      Refresh.Cohort.join, Refresh.Cohort.idle, Cache.place_length, h.terms, led, List.nil_append]
    rfl
  have hrefresh : (⟨c, slots⟩ : Provider).refresh (.join call) =
      (⟨led c call c.now, slots⟩, [.joined call .leader c.cycles.length,
        .noted (.refreshing p.secretPath), .readStarted p.secretPath]) := by
    rw [Provider.refresh, hjoin]
    rfl
  have hstep : (⟨c, slots⟩ : Provider).step (.refresh (.join call)) =
      (⟨c, slots⟩ : Provider).ask call := by
    simp only [Provider.step, Cache.seat?, h.seats, List.find?_nil]
  rw [hstep, Provider.ask, opening]
  cases hway : call.way.handle? with
  | none => exact ⟨_, hrefresh, rfl, rfl⟩
  | some handle =>
    simp only [unkept handle hway, hrefresh]
    exact ⟨_, rfl, rfl, rfl⟩

/-- What is taken over does not depend on who leads. -/
theorem absorb_led (c : Cache) (call : Call) (now : ℕ) (fetched : Except Failure Secret) :
    (led c call now).absorb fetched =
      ({ led c call now with
          tracked := ({ c with now }.absorb fetched).1.tracked
          window := ({ c with now }.absorb fetched).1.window },
        ({ c with now }.absorb fetched).2) := by
  cases fetched with
  | error failure => rfl
  | ok secret => cases hmerge : c.tracked.merge secret <;> simp [Cache.absorb, led, hmerge]

/-- The refresh ends with what was fetched, and nobody waits any more. -/
theorem commit_led (h : c.AtRest p) (call : Call) (now : ℕ) (fetched : Except Failure Secret) :
    ∃ cycles, (led c call now).commit ⟨call, c.cycles.length, .leader, 0⟩ fetched =
      ({ ({ c with now }.absorb fetched).1 with cycles },
        ended c call ({ c with now }.absorb fetched).2) := by
  refine ⟨((led c call now).finish ({ c with now }.absorb fetched).2).cycles, ?_⟩
  rw [Cache.commit, absorb_led, Cache.absorb_fst { c with now }]
  apply Prod.ext
  · simp [Cache.leave, Cache.finish, Cache.isFollowed, led, h.cohort, h.seats]
  · rfl

/-- The call leads while its refresh lasts. -/
theorem seatAs?_led (c : Cache) (call : Call) (now : ℕ) :
    (led c call now).seatAs? .leader call = some ⟨call, c.cycles.length, .leader, 0⟩ := by
  simp [Cache.seatAs?, led]

/-- The refresh reads the path of the profile. -/
theorem path_led (h : c.AtRest p) (call : Call) (now : ℕ) :
    (led c call now).terms.path = p.secretPath :=
  congrArg Refresh.Terms.path h.terms

/-- The refresh lasts no longer than the profile lets it. -/
theorem fetchTimeout_led (h : c.AtRest p) (call : Call) (now : ℕ) :
    (led c call now).terms.fetchTimeout = p.fetchTimeout :=
  congrArg Refresh.Terms.fetchTimeout h.terms

/-- The time of the read is up when it has lasted as long as it may. -/
theorem isDue_led (h : c.AtRest p) (call : Call) :
    (led c call (c.now + p.fetchTimeout)).isDue c.cycles.length = true := by
  simp [Cache.isDue, led, h.terms, Cache.ofProfile, Cache.fresh]

/-- An event that ends the refresh brings the call its outcome. -/
theorem refresh_led (h : c.AtRest p) (slots : List (Option KeyPair)) {call : Call} {now : ℕ}
    {event : Refresh.Event} {fetched : Except Failure Secret}
    (ends : (led c call now).step event =
      (led c call now).commit ⟨call, c.cycles.length, .leader, 0⟩ fetched) :
    ∃ cycles, (⟨led c call now, slots⟩ : Provider).refresh event =
      (⟨{ ({ c with now }.absorb fetched).1 with cycles },
          Provider.keep slots (.returned call ({ c with now }.absorb fetched).2)⟩,
        ended c call ({ c with now }.absorb fetched).2) := by
  obtain ⟨cycles, hcommit⟩ := commit_led h call now fetched
  refine ⟨cycles, ?_⟩
  rw [Provider.refresh, ends, hcommit]
  rfl

/-- The refresh that a call leads ends when its exchange does, or its time. -/
theorem run_led (h : c.AtRest p) (slots : List (Option KeyPair)) (call : Call)
    (exchange : Exchange Secret) :
    ∃ cycles, (⟨led c call c.now, slots⟩ : Provider).run (events call p.fetchTimeout exchange) =
      (⟨{ (taken p c exchange).1 with cycles },
          Provider.keep slots (.returned call (taken p c exchange).2)⟩,
        ended c call (taken p c exchange).2) := by
  have hadvance : ∀ span, (⟨led c call c.now, slots⟩ : Provider).step (.refresh (.advance span)) =
      (⟨led c call (c.now + span), slots⟩, []) := fun _ => rfl
  unfold events taken fetched
  by_cases hintime : exchange.elapsed ≤ p.fetchTimeout
  · have hanswer : (led c call (c.now + exchange.elapsed)).step (.answer call exchange.reply) =
        (led c call (c.now + exchange.elapsed)).commit ⟨call, c.cycles.length, .leader, 0⟩
          (exchange.reply.secret? p.secretPath) := by
      rw [Cache.step, seatAs?_led, path_led h]
    simp only [hintime, if_true, Nat.min_eq_left hintime, Provider.run, hadvance, List.nil_append,
      List.append_nil]
    exact refresh_led h slots hanswer
  · have hdue : (led c call (c.now + p.fetchTimeout)).step (.timeOut call) =
        (led c call (c.now + p.fetchTimeout)).commit ⟨call, c.cycles.length, .leader, 0⟩
          (.error (Refresh.timedOut p.fetchTimeout)) := by
      simp only [Cache.step, seatAs?_led, isDue_led h, if_true, fetchTimeout_led h]
    have hlate : p.fetchTimeout ≤ exchange.elapsed := by omega
    simp only [hintime, if_false, Nat.min_eq_right hlate, Provider.run, hadvance, List.nil_append,
      List.append_nil]
    exact refresh_led h slots hdue

/-- A call that is given a kept pair asks for nothing, and changes nothing. -/
theorem call_kept (h : c.seats = []) (client : Client) {slots : List (Option KeyPair)} {call : Call}
    {handle : ℕ} {pair : KeyPair} (hway : call.way.handle? = some handle)
    (kept : (⟨c, slots⟩ : Provider).stored? handle = some pair) (answer : Answer) :
    (⟨client, ⟨c, slots⟩⟩ : Vault).call call answer =
      (⟨client, ⟨c, slots⟩⟩, ⟨.pair pair, none, []⟩) := by
  have hjoin : (⟨c, slots⟩ : Provider).step (.refresh (.join call)) =
      (⟨c, slots⟩, [.returned call (.pair pair)]) := by
    simp only [Provider.step, Cache.seat?, h, List.find?_nil, Provider.ask, hway, kept]
  simp only [Vault.call, hjoin]
  rfl

/-- A call that is not given a kept pair makes one read, and comes to what is made of it. -/
theorem call_atRest (h : c.AtRest p) (client : Client) (slots : List (Option KeyPair)) (call : Call)
    (unkept : ∀ handle, call.way.handle? = some handle →
      (⟨c, slots⟩ : Provider).stored? handle = none) (answer : Answer) :
    ∃ cycles, (⟨client, ⟨c, slots⟩⟩ : Vault).call call answer =
      (⟨client, ⟨{ (taken p c (client.read p.secretPath answer)).1 with cycles },
          Provider.keep slots
            (.returned call (taken p c (client.read p.secretPath answer)).2)⟩⟩,
        asked p call (client.read p.secretPath answer)
          (taken p c (client.read p.secretPath answer)).2) := by
  obtain ⟨effects, hjoin, hwaits, hnotes⟩ := step_join h unkept
  obtain ⟨cycles, hrun⟩ := run_led h slots call (client.read p.secretPath answer)
  refine ⟨cycles, ?_⟩
  simp only [Vault.call, hjoin, hwaits, path_led h, fetchTimeout_led h, Option.isSome_none,
    Bool.false_eq_true, if_false, hnotes, hrun]
  rfl

end Vault

end FreshKeys
