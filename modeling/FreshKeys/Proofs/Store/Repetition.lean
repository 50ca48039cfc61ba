import FreshKeys.Proofs.Store.Delays
import FreshKeys.Proofs.Store.Retrieval
import Mathlib.Algebra.GroupWithZero.Nat

/-!
# Gets through a handle

The gets through the handle of a vault are made one after the other, with time passing in between.
A get that fails leaves nothing behind but the time it took, and what comes after it is what would
come of a new vault. The first get that succeeds leaves its pair in the handle, and as long as that
is valid nothing is asked for again.
-/

namespace FreshKeys

open Refresh (Cache Provider Window)
open Store (Answer Client Exchange Request Script)

namespace Store.Script

/-- The answer to the request at a position. -/
def answer (script : Script) (position : ℕ) : Answer :=
  script.answers[position]?.getD script.afterwards

/-- What is left after so many requests. -/
def drop (script : Script) (count : ℕ) : Script :=
  { script with answers := script.answers.drop count }

variable {script : Script}

/-- The first answer is the one to the next request. -/
@[simp] theorem answer_zero : script.answer 0 = script.next := by
  rw [answer, next, List.head?_eq_getElem?]

/-- Without requests a script is left as it is. -/
@[simp] theorem drop_zero : script.drop 0 = script := rfl

/-- A request that is sent uses up one answer. -/
@[simp] theorem after_some (request : Request) : script.after (some request) = script.drop 1 := by
  rw [after, drop, List.drop_one]
  rfl

/-- One that is not sent uses up none. -/
@[simp] theorem after_none : script.after none = script := rfl

/-- The answers that are left are counted from the first of them. -/
@[simp] theorem answer_drop (count position : ℕ) :
    (script.drop count).answer position = script.answer (count + position) := by
  rw [answer, drop, List.getElem?_drop]
  rfl

/-- Answers can be used up in two goes. -/
@[simp] theorem drop_drop (count more : ℕ) :
    (script.drop count).drop more = script.drop (count + more) := by
  simp only [drop, List.drop_drop]

end Store.Script

namespace Vault

variable {p : Profile} {span : ℕ} {v w : Vault}

/-- Gets through the handle, numbered from the given one, each after some time. -/
def gets (v : Vault) (number : ℕ) : List ℕ → Script → Vault × Script × List Turn
  | [], script => (v, script, [])
  | span :: spans, script =>
    let (next, turn) := (v.wait span).call ⟨0, number, handle⟩ script.next
    let (last, left, turns) := next.gets (number + 1) spans (script.after turn.request)
    (last, left, turn :: turns)

/-- Calls in a row are gets with no time between them. -/
theorem calls_handle (v : Vault) (number times : ℕ) (script : Script) :
    v.calls handle number times script = v.gets number (List.replicate times 0) script := by
  induction times generalizing v number script with
  | zero => rfl
  | succ times ih =>
    have hwait : v.wait 0 = v := rfl
    simp only [calls, List.replicate_succ, gets, hwait, ih]

/-- Gets go on from where earlier ones have left off. -/
theorem gets_append (v : Vault) (number : ℕ) (first later : List ℕ) (script : Script) :
    (v.gets number (first ++ later) script).2.2 =
      (v.gets number first script).2.2 ++
        ((v.gets number first script).1.gets (number + first.length) later
          (v.gets number first script).2.1).2.2 := by
  induction first generalizing v number script with
  | nil => rfl
  | cons span first ih =>
    simp only [List.cons_append, gets, ih, List.length_cons]
    rw [Nat.add_right_comm, Nat.add_assoc]

/-- Gets come to the same later on, and whatever they are numbered. -/
theorem Delayed.gets (h : Delayed p span v w) (number number' : ℕ) (spans : List ℕ)
    (script : Script) :
    (w.gets number' spans script).2.2 = (v.gets number spans script).2.2 := by
  induction spans generalizing v w number number' script with
  | nil => rfl
  | cons span spans ih =>
    obtain ⟨hturn, hnext⟩ := (h.wait span).call ⟨0, number, handle⟩
      ⟨0, number', handle⟩ rfl script.next
    simp only [Vault.gets, hturn, ih hnext (number + 1) (number' + 1)]

/-- A vault for which nothing has been fetched, and for which nobody waits. -/
structure Unread (p : Profile) (client : Client) (v : Vault) : Prop where
  client : v.client = client
  atRest : v.provider.cache.AtRest p
  tracked : v.provider.cache.tracked = (Cache.ofProfile p).tracked
  window : v.provider.cache.window = .unopened
  slots : v.provider.slots = [none]

/-- A vault whose handle has a pair that stays valid for some time. -/
structure Keeps (pair : KeyPair) (rest : ℕ) (v : Vault) : Prop where
  seats : v.provider.cache.seats = []
  window : ∃ last, v.provider.cache.window = ⟨some last⟩ ∧ v.provider.cache.now + rest ≤ last
  slots : v.provider.slots = [some pair]

/-- What the first get of a vault comes to that meets an answer. -/
def getting (p : Profile) (client : Client) (answer : Answer) : Turn :=
  asked p ⟨0, 0, handle⟩ (client.read p.secretPath answer)
    ((Cache.ofProfile p).absorb (fetched p (client.read p.secretPath answer))).2

/-- A new vault has read nothing. -/
theorem Unread.fresh (p : Profile) (client : Client) : Unread p client (.fresh client p) :=
  ⟨rfl, .ofProfile p, rfl, rfl, rfl⟩

/-- Time that passes reads nothing. -/
theorem Unread.wait {client : Client} (h : Unread p client v) (span : ℕ) :
    Unread p client (v.wait span) :=
  ⟨h.client, h.atRest.later _, h.tracked, h.window, h.slots⟩

/-- It stands as a new vault does, some time later. -/
theorem Unread.delayed {client : Client} (h : Unread p client v) :
    Delayed p v.provider.cache.now (.fresh client p) v where
  client := h.client
  cache := ⟨.ofProfile p, h.atRest, h.tracked, (Nat.zero_add _).symm, h.window⟩
  slots := h.slots

/-- The first pair opens the window. -/
theorem taken_window {c : Cache} (h : c.AtRest p) (hwindow : c.window = .unopened)
    {exchange : Exchange Secret} {pair : KeyPair} (hpair : (taken p c exchange).2 = .pair pair) :
    (taken p c exchange).1.window = ⟨some ((taken p c exchange).1.now + p.ttl)⟩ := by
  have hnow : (taken p c exchange).1.now = c.now + min exchange.elapsed p.fetchTimeout := by
    rw [taken, Cache.absorb_fst]
  have hopen := Cache.absorb_of_pair hpair
  rw [hnow]
  refine hopen.trans ?_
  rw [hwindow, h.terms]
  rfl

/-- A get meets an answer as the first one does. A failure leaves nothing behind, and a pair is
kept for as long as it is valid. -/
theorem Unread.get {client : Client} (h : Unread p client v) (number : ℕ) (answer : Answer) :
    (v.call ⟨0, number, handle⟩ answer).2 = getting p client answer ∧
      (∀ failure, (getting p client answer).outcome = .failure failure →
        Unread p client (v.call ⟨0, number, handle⟩ answer).1) ∧
      ∀ pair, (getting p client answer).outcome = .pair pair →
        Keeps pair p.ttl (v.call ⟨0, number, handle⟩ answer).1 := by
  obtain ⟨client', ⟨c, slots⟩⟩ := v
  obtain ⟨hclient, hatRest, htracked, hwindow, hslots⟩ := h
  simp only at hclient hatRest htracked hwindow hslots
  subst hclient hslots
  have unkept : ∀ i, Refresh.Way.handle? handle = some i →
      (⟨c, [none]⟩ : Provider).stored? i = none := by
    rintro i ⟨⟩
    simp [Provider.stored?]
  obtain ⟨cycles, hcall⟩ := call_atRest hatRest client' [none] ⟨0, number, handle⟩ unkept answer
  have houtcome : (taken p c (client'.read p.secretPath answer)).2 =
      (getting p client' answer).outcome := by
    rw [taken_snd, Cache.absorb_snd _ _ _ htracked]
    rfl
  rw [hcall, houtcome]
  refine ⟨rfl, ?_, ?_⟩
  · intro failure hfailure
    have hleft := Cache.absorb_of_failure (houtcome.trans hfailure)
    rw [hfailure, taken, hleft]
    exact ⟨rfl, (hatRest.later _).recount cycles, htracked, hwindow, rfl⟩
  · intro pair hpair
    have hopen := taken_window hatRest hwindow (houtcome.trans hpair)
    rw [hpair]
    exact ⟨(taken_atRest hatRest _).seats, ⟨_, hopen, Nat.le_refl _⟩, rfl⟩

/-- As long as its pair is valid, a handle hands it out and asks for nothing. -/
theorem Keeps.get {pair : KeyPair} {rest : ℕ} (h : Keeps pair rest v) (number : ℕ)
    (answer : Answer) :
    v.call ⟨0, number, handle⟩ answer = (v, ⟨.pair pair, none, []⟩) := by
  obtain ⟨last, hwindow, hlast⟩ := h.window
  have hvalid : v.provider.isExpired = false := by
    simp [Provider.isExpired, Cache.isExpired, hwindow, Window.isExpired]
    omega
  have hstored : v.provider.stored? 0 = some pair := by
    simp [Provider.stored?, hvalid, h.slots]
  exact call_kept h.seats v.client rfl hstored answer

/-- A pair that stays valid for some time does so for less. -/
theorem Keeps.mono {pair : KeyPair} {rest less : ℕ} (h : Keeps pair rest v) (hless : less ≤ rest) :
    Keeps pair less v := by
  obtain ⟨last, hwindow, hlast⟩ := h.window
  exact ⟨h.seats, ⟨last, hwindow, by omega⟩, h.slots⟩

/-- While time passes, a pair stays valid for what is left. -/
theorem Keeps.wait {pair : KeyPair} {span rest : ℕ} (h : Keeps pair (span + rest) v) :
    Keeps pair rest (v.wait span) := by
  obtain ⟨last, hwindow, hlast⟩ := h.window
  exact ⟨h.seats, ⟨last, hwindow, by rw [← Nat.add_assoc] at hlast; exact hlast⟩, h.slots⟩

/-- Gets from a kept pair. -/
theorem Keeps.gets {pair : KeyPair} {spans : List ℕ} (h : Keeps pair spans.sum v) (number : ℕ)
    (script : Script) :
    (v.gets number spans script).2.2 =
      List.replicate spans.length ⟨.pair pair, none, []⟩ := by
  induction spans generalizing v number with
  | nil => rfl
  | cons span spans ih =>
    rw [List.sum_cons] at h
    simp only [Vault.gets, h.wait.get, Script.after_none, ih h.wait, List.length_cons,
      List.replicate_succ]

/-- A get sends the request of its vault, if there is one. -/
theorem request_getting (p : Profile) (client : Client) (answer : Answer) :
    (getting p client answer).request = client.request? (Store.apiPath client.kvV2 p.secretPath) :=
  Client.request_of_read client p.secretPath answer

/-- Gets that fail meet one answer after the other, and leave nothing behind. -/
theorem Unread.gets {client : Client} {request : Request} (h : Unread p client v)
    (sendable : client.request? (Store.apiPath client.kvV2 p.secretPath) = some request)
    (number : ℕ) (spans : List ℕ) {script : Script}
    (failing : ∀ i < spans.length,
      (getting p client (script.answer i)).outcome.pair? = none) :
    Unread p client (v.gets number spans script).1 ∧
      (v.gets number spans script).2.1 = script.drop spans.length ∧
      (v.gets number spans script).2.2 =
        (List.range spans.length).map fun i => getting p client (script.answer i) := by
  induction spans generalizing v number script with
  | nil => exact ⟨h, rfl, rfl⟩
  | cons span spans ih =>
    obtain ⟨hturn, hfailed, -⟩ := (h.wait span).get number script.next
    have hlater : ∀ i < spans.length,
        (getting p client ((script.drop 1).answer i)).outcome.pair? = none := by
      intro i hi
      rw [Script.answer_drop, Nat.add_comm]
      exact failing (i + 1) (Nat.succ_lt_succ hi)
    obtain ⟨failure, hfailure⟩ : ∃ failure,
        (getting p client script.next).outcome = .failure failure := by
      have hnone := failing 0 (Nat.succ_pos _)
      rw [Script.answer_zero] at hnone
      cases houtcome : (getting p client script.next).outcome with
      | pair pair => simp [houtcome, Outcome.pair?] at hnone
      | failure failure => exact ⟨failure, rfl⟩
    obtain ⟨hnext, hleft, hturns⟩ := ih (hfailed failure hfailure) (number + 1) hlater
    have hsent := (request_getting p client script.next).trans sendable
    simp only [Vault.gets, hturn, hsent, Script.after_some]
    refine ⟨hnext, ?_, ?_⟩
    · rw [hleft, Script.drop_drop, Nat.add_comm, List.length_cons]
    · rw [hturns, List.length_cons, List.range_succ_eq_map, List.map_cons, List.map_map,
        Script.answer_zero]
      simp [Function.comp_def, Nat.add_comm]

/-- Gets that fail are followed by one that succeeds, and this one by gets from its pair. -/
theorem Unread.gets_through {client : Client} {request : Request} (h : Unread p client v)
    (sendable : client.request? (Store.apiPath client.kvV2 p.secretPath) = some request)
    (number : ℕ) (first : List ℕ) (span : ℕ) {later : List ℕ} {script : Script} {pair : KeyPair}
    (succeeds : (getting p client (script.answer first.length)).outcome = .pair pair)
    (failing : ∀ i < first.length, (getting p client (script.answer i)).outcome.pair? = none)
    (valid : later.sum ≤ p.ttl) :
    (v.gets number (first ++ span :: later) script).2.2 =
      (List.range first.length).map (fun i => getting p client (script.answer i)) ++
        getting p client (script.answer first.length) ::
          List.replicate later.length ⟨.pair pair, none, []⟩ := by
  obtain ⟨hnext, hleft, hturns⟩ := h.gets sendable number first failing
  obtain ⟨hturn, -, hkeeps⟩ := (hnext.wait span).get (number + first.length)
    (script.answer first.length)
  have hanswer : (script.drop first.length).next = script.answer first.length := by
    rw [← Script.answer_zero, Script.answer_drop, Nat.add_zero]
  have hlater := ((hkeeps pair succeeds).mono valid).gets (number + first.length + 1)
    (script.drop (first.length + 1))
  have hsent := (request_getting p client (script.answer first.length)).trans sendable
  rw [gets_append, hturns, hleft]
  simp only [Vault.gets, hanswer, hturn, hsent, Script.after_some, Script.drop_drop, hlater]

/-- Gets up to the first success meet one answer after the other, and those after it are given its
pair as long as it is valid. -/
theorem Unread.gets_until {client : Client} {request : Request} (h : Unread p client v)
    (sendable : client.request? (Store.apiPath client.kvV2 p.secretPath) = some request)
    (number : ℕ) {spans : List ℕ} {script : Script} {k : ℕ} {pair : KeyPair}
    (succeeds : (getting p client (script.answer k)).outcome = .pair pair)
    (failing : ∀ i < k, (getting p client (script.answer i)).outcome.pair? = none)
    (valid : (spans.drop (k + 1)).sum ≤ p.ttl) :
    (v.gets number spans script).2.2 =
      (List.range spans.length).map fun i =>
        if i ≤ k then getting p client (script.answer i) else ⟨.pair pair, none, []⟩ := by
  by_cases hlast : k < spans.length
  · obtain ⟨first, span, later, rfl, rfl⟩ : ∃ first span later,
        spans = first ++ span :: later ∧ k = first.length :=
      ⟨spans.take k, spans[k], spans.drop (k + 1), by simp, by simp; omega⟩
    have hkept : (first ++ span :: later).drop (first.length + 1) = later := by simp
    have hlength : (first ++ span :: later).length = first.length + (later.length + 1) := by simp
    have hafter : ∀ i, ¬ first.length + (i + 1) ≤ first.length := fun i => by omega
    rw [h.gets_through sendable number first span succeeds failing (hkept ▸ valid), hlength,
      List.range_add, List.range_succ_eq_map, List.map_append]
    congr 1
    · apply List.map_congr_left
      intro i hi
      rw [if_pos (Nat.le_of_lt (List.mem_range.mp hi))]
    · simp [Function.comp_def, hafter, List.map_const']
  · have hbefore : ∀ i < spans.length, i < k := fun i hi => by omega
    obtain ⟨-, -, hturns⟩ := h.gets sendable number spans fun i hi => failing i (hbefore i hi)
    rw [hturns]
    apply List.map_congr_left
    intro i hi
    rw [if_pos (Nat.le_of_lt (hbefore i (List.mem_range.mp hi)))]

/-- Without a request a get fails, whatever the answer would be. -/
theorem getting_unsendable {client : Client}
    (unsendable : client.request? (Store.apiPath client.kvV2 p.secretPath) = none)
    (answer : Answer) :
    getting p client answer =
      asked p ⟨0, 0, handle⟩
        ⟨none, .error (client.requestFailed (Store.apiPath client.kvV2 p.secretPath)
            "no such request"), 0, [.reading (Store.apiPath client.kvV2 p.secretPath)]⟩
        (.failure (.sourceUnavailable (Causes.message (client.requestFailed
          (Store.apiPath client.kvV2 p.secretPath) "no such request")))) := by
  have hread : client.read p.secretPath answer =
      ⟨none, .error (client.requestFailed (Store.apiPath client.kvV2 p.secretPath)
          "no such request"), 0, [.reading (Store.apiPath client.kvV2 p.secretPath)]⟩ := by
    simp only [Client.read, Client.get, unsendable]
    rfl
  rw [getting, hread]
  rfl

/-- Gets of a vault whose request cannot be sent all fail alike. -/
theorem Unread.gets_unsendable {client : Client} (h : Unread p client v)
    (unsendable : client.request? (Store.apiPath client.kvV2 p.secretPath) = none)
    (number : ℕ) (spans : List ℕ) (script : Script) (answer : Answer) :
    (v.gets number spans script).2.2 = List.replicate spans.length (getting p client answer) := by
  have hsame : getting p client script.next = getting p client answer := by
    rw [getting_unsendable unsendable, getting_unsendable unsendable]
  have hsent : (getting p client answer).request = none :=
    (request_getting p client answer).trans unsendable
  have hfailure := congrArg Turn.outcome (getting_unsendable unsendable script.next)
  induction spans generalizing v number with
  | nil => rfl
  | cons span spans ih =>
    obtain ⟨hturn, hfailed, -⟩ := (h.wait span).get number script.next
    have hnext := ih (hfailed _ hfailure) (number + 1)
    simp only [Vault.gets, hturn, hsame, hsent, Script.after_none, List.length_cons,
      List.replicate_succ]
    rw [hnext]

/-- What a retrieval of its own comes to that meets the answer at a position. -/
def retrieval (v : Vault) (script : Script) (position : ℕ) : Outcome :=
  (v.call ⟨0, 0, .retrieve⟩ (script.answer position)).2.outcome

/-- A first get comes to what a retrieval comes to. -/
theorem retrieval_fresh (p : Profile) (client : Client) (script : Script) (position : ℕ) :
    (fresh client p).retrieval script position =
      (getting p client (script.answer position)).outcome := by
  obtain ⟨before, after, -, -, hturn⟩ :=
    call_fresh client p ⟨0, 0, .retrieve⟩ (script.answer position)
  rw [retrieval, hturn]
  rfl

/-- The requests that were sent in turns. -/
def requestsOf (turns : List Turn) : List Request := turns.filterMap Turn.request

/-- What the gets through the handle of a new vault come to against a script. -/
structure ReadsUntilSuccess (p : Profile) (v : Vault) (request : Request) (script : Script) :
    Prop where
  /-- Calls in a row are gets with no time between them. -/
  row : ∀ number times,
    v.calls handle number times script = v.gets number (List.replicate times 0) script
  /-- As long as no answer would do, each get sends the request and fails as a retrieval does. -/
  failing : ∀ number spans,
    (∀ i < spans.length, (v.retrieval script i).pair? = none) →
      requestsOf (v.gets number spans script).2.2 = List.replicate spans.length request ∧
        (v.gets number spans script).2.2.map Turn.outcome =
          (List.range spans.length).map (v.retrieval script)
  /-- The first answer that does is the last one that is asked for while its pair is valid. -/
  stopping : ∀ number spans k pair, v.retrieval script k = .pair pair →
    (∀ i < k, (v.retrieval script i).pair? = none) → (spans.drop (k + 1)).sum ≤ p.ttl →
      requestsOf (v.gets number spans script).2.2 =
          List.replicate (min spans.length (k + 1)) request ∧
        (v.gets number spans script).2.2.map Turn.outcome =
          (List.range spans.length).map fun i =>
            if i < k then v.retrieval script i else .pair pair
  /-- After gets that failed, gets come to what they come to from the beginning. -/
  forgetting : ∀ number number' first later,
    (∀ i < first.length, (v.retrieval script i).pair? = none) →
      (v.gets number (first ++ later) script).2.2 =
        (v.gets number first script).2.2 ++ (v.gets number' later (script.drop first.length)).2.2

/-- What they come to when the request cannot be sent. -/
structure FailsUnsent (v : Vault) (script : Script) : Prop where
  failing : ∀ position, (v.retrieval script position).pair? = none
  unsent : ∀ number spans, requestsOf (v.gets number spans script).2.2 = []
  /-- A retrieval fails in the same way, whatever the answer would be. -/
  alike : ∀ number spans position,
    (v.gets number spans script).2.2.map Turn.outcome =
      List.replicate spans.length (v.retrieval script position)

/-- Turns up to a position send a request each, and those after it none. -/
theorem requestsOf_until {turn : ℕ → Turn} {request : Request} (pair : KeyPair) (k : ℕ)
    (sent : ∀ i, (turn i).request = some request) (count : ℕ) :
    requestsOf ((List.range count).map fun i => if i ≤ k then turn i else ⟨.pair pair, none, []⟩) =
      List.replicate (min count (k + 1)) request := by
  induction count with
  | zero => rw [Nat.zero_min]; rfl
  | succ count ih =>
    rw [List.range_succ, List.map_append, requestsOf, List.filterMap_append, ← requestsOf, ih]
    by_cases hbefore : count ≤ k
    · have hmin : min (count + 1) (k + 1) = min count (k + 1) + 1 := by omega
      rw [hmin, List.replicate_succ']
      simp [hbefore, sent]
    · have hmin : min (count + 1) (k + 1) = min count (k + 1) := by omega
      rw [hmin]
      simp [hbefore]

/-- Gets of a new vault whose request can be sent read until one succeeds, and not again as long as
the pair is valid. -/
theorem readsUntilSuccess {request : Request} (sendable : requestFor p = some request)
    (script : Script) :
    ReadsUntilSuccess p (.fresh (clientFor p) p) request script := by
  have hunread := Unread.fresh p (clientFor p)
  have hsent : ∀ answer, (getting p (clientFor p) answer).request = some request := fun answer =>
    (request_getting p (clientFor p) answer).trans sendable
  constructor
  case row => exact fun number times => calls_handle _ number times script
  case failing =>
    intro number spans hfailing
    simp only [retrieval_fresh] at hfailing
    obtain ⟨-, -, hturns⟩ := hunread.gets sendable number spans hfailing
    rw [hturns, List.map_map]
    refine ⟨?_, List.map_congr_left fun i _ => (retrieval_fresh p _ script i).symm⟩
    simp [requestsOf, List.filterMap_map, hsent, List.map_const']
  case stopping =>
    intro number spans k pair hsucceeds hfailing hvalid
    simp only [retrieval_fresh] at hsucceeds hfailing
    rw [hunread.gets_until sendable number hsucceeds hfailing hvalid]
    refine ⟨requestsOf_until pair k (fun i => hsent (script.answer i)) spans.length, ?_⟩
    rw [List.map_map]
    apply List.map_congr_left
    intro i _
    rcases Nat.lt_trichotomy i k with hbefore | rfl | hafter
    · simp [hbefore, Nat.le_of_lt hbefore, retrieval_fresh]
    · simp [hsucceeds]
    · simp [Nat.not_le_of_gt hafter, Nat.not_lt_of_gt hafter]
  case forgetting =>
    intro number number' first later hfailing
    simp only [retrieval_fresh] at hfailing
    obtain ⟨hnext, hleft, -⟩ := hunread.gets sendable number first hfailing
    rw [gets_append, hleft, hnext.delayed.gets number' _ later]

/-- Gets of a new vault whose request cannot be sent fail, each in the same way. -/
theorem failsUnsent (unsendable : requestFor p = none) (script : Script) :
    FailsUnsent (.fresh (clientFor p) p) script := by
  have hunread := Unread.fresh p (clientFor p)
  constructor
  case failing =>
    intro position
    rw [retrieval_fresh, getting_unsendable unsendable]
    rfl
  case unsent =>
    intro number spans
    rw [hunread.gets_unsendable unsendable number spans script script.next, requestsOf,
      List.filterMap_replicate_of_none]
    exact (request_getting p (clientFor p) script.next).trans unsendable
  case alike =>
    intro number spans position
    rw [hunread.gets_unsendable unsendable number spans script (script.answer position),
      List.map_replicate, retrieval_fresh]

/-- Gets through the handle of a vault read until one succeeds, if its request can be sent, and
otherwise all fail without one. -/
theorem gets_of_created {files : Files} (created :
      Registry.create files Registry.Kind.vault.name p = .ok v) (script : Script) :
    (∀ request, requestFor p = some request → ReadsUntilSuccess p v request script) ∧
      (requestFor p = none → FailsUnsent v script) := by
  obtain rfl := eq_fresh_of_create created
  exact ⟨fun request sendable => readsUntilSuccess sendable script,
    fun unsendable => failsUnsent unsendable script⟩

/-- A server is down and comes back: two requests serve three gets. -/
theorem gets_after_outage :
    let p : Profile :=
      { address := "http://127.0.0.1:8200", token := "root", secretPath := "secret/aws"
        accessKeyName := "ak", secretKeyName := "sk", ttl := 6000, fetchTimeout := 5000
        timeout := 5000, caFile := none, kvV2 := true }
    let payload : Secret :=
      [("data", .object [("ak", .text "AKIA1"), ("sk", .text "S1")]), ("metadata", .object [])]
    let body := (Json.object [("data", .object payload)]).print.toUTF8
    let script : Script := ⟨[.complete 500 "down".toUTF8, .complete 200 body], .silent⟩
    let request : Request :=
      ⟨⟨false, "127.0.0.1", some 8200, ["v1", "secret", "data", "aws"], none⟩, "root"⟩
    let down : Outcome :=
      .failure (.sourceUnavailable "request failed: 500 Internal Server Error - down")
    let pair : KeyPair := ⟨"AKIA1", "S1", KeyPair.vaultProvider⟩
    ∃ v : Vault,
      Registry.create .empty Registry.Kind.vault.name p = .ok v ∧
      requestFor p = some request ∧
      v.retrieval script 0 = down ∧ v.retrieval script 1 = .pair pair ∧
      requestsOf (v.gets 1 [100, 0, 6000] script).2.2 = [request, request] ∧
      (v.gets 1 [100, 0, 6000] script).2.2.map Turn.outcome = [down, .pair pair, .pair pair] := by
  intro p payload body script request down pair
  have hcreated : Registry.create .empty Registry.Kind.vault.name p =
      .ok (.fresh (clientFor p) p) := rfl
  have hrequest : requestFor p = some request := by decide +kernel
  have hdown : (Vault.fresh (clientFor p) p).retrieval script 0 = down := by decide +kernel
  have hpair : (Vault.fresh (clientFor p) p).retrieval script 1 = .pair pair := by decide +kernel
  have hfailing : ∀ i < 1,
      ((Vault.fresh (clientFor p) p).retrieval script i).pair? = none := by
    intro i hi
    rw [Nat.lt_one_iff.mp hi, hdown]
    rfl
  obtain ⟨hrequests, houtcomes⟩ := ((gets_of_created hcreated script).1 request hrequest).stopping
    1 [100, 0, 6000] 1 pair hpair hfailing (by decide)
  refine ⟨_, hcreated, hrequest, hdown, hpair, hrequests, houtcomes.trans ?_⟩
  simp [List.range_succ, hdown]

/-- A token with a control character is accepted, and nothing is ever sent with it. -/
theorem gets_with_control_character :
    let s : Settings :=
      { Settings.initial with
        address := "http://vault.test:8200", token := some "a\x01b", secretPath := "secret/aws"
        accessKeyName := "ak", secretKeyName := "sk" }
    ∃ p v, Profile.ofSettings .empty s = .ok p ∧
      Registry.create .empty Registry.Kind.vault.name p = .ok v ∧
      ∀ script, (∀ position, (v.retrieval script position).pair? = none) ∧
        requestsOf (v.gets 1 [0] script).2.2 = [] := by
  intro s
  let p : Profile :=
    { address := "http://vault.test:8200", token := "a\x01b", secretPath := "secret/aws"
      accessKeyName := "ak", secretKeyName := "sk", ttl := 6000, fetchTimeout := 5000
      timeout := 5000, caFile := none, kvV2 := true }
  have haccepted : Profile.ofSettings .empty s = .ok p := by decide +kernel
  have hunsendable : requestFor p = none := by decide +kernel
  refine ⟨p, .fresh (clientFor p) p, haccepted, rfl, fun script => ?_⟩
  have hfails := failsUnsent hunsendable script
  exact ⟨hfails.failing, hfails.unsent 1 [0]⟩

end Vault

end FreshKeys
