import FreshKeys.Proofs.Refresh.Providers

/-!
# The order in which pairs reach a handle

A call puts the pair it returns into the slot of its handle when it is resumed, and compares it with
nothing. A follower that is resumed late puts the pair of its own refresh in place of that of a
later one. As long as no refresh ends while somebody has yet to be told of an earlier one, the pairs
that reach a handle come from refreshes in their order.
-/

namespace FreshKeys.Refresh

namespace Cache

variable {c c' : Cache} {event : Event} {new : List Effect} {handle : ℕ} {seat : Seat}

/-- Everybody who waits, waits for the refresh in flight: nobody has yet to be told of another. -/
def Told (c : Cache) : Prop := ∀ s ∈ c.seats, c.cohort.signal = some s.cycle

/-- An effect ends a refresh. -/
def Ends (new : List Effect) : Prop :=
  ∃ cycle outcome followers, .finished cycle outcome followers ∈ new

/-- The refresh whose pair reaches a handle by an effect: the one that the call has waited for. What
a handle hands out of its slot is returned to a call that waits for none. -/
def reaching? (c : Cache) (handle : ℕ) : Effect → Option ℕ
  | .returned call (.pair _) =>
    if call.way = .handle handle then (c.seat? call).map Seat.cycle else none
  | _ => none

/-- Whoever waits, waits for a refresh that has begun. -/
theorem Coherent.cycle_lt_length (hcoherent : Coherent c) (hseat : seat ∈ c.seats) :
    seat.cycle < c.cycles.length := by
  cases hrole : seat.role with
  | leader =>
    have hlast := (hcoherent.busy _ (hcoherent.of_leader hseat hrole).1).last
    omega
  | follower => exact hcoherent.cycle_lt hseat hrole

/-- Who has been sent an outcome does not wait for the refresh in flight. -/
theorem Coherent.late_of_receipt (hcoherent : Coherent c) (hseat : seat ∈ c.seats)
    (hfollows : seat.role = .follower) {receipt : Receipt Outcome}
    (hreceipt : c.receipt? seat = some receipt) : c.cohort.signal ≠ some seat.cycle := by
  intro hsignal
  rcases hcoherent.receipt?_cases hseat hfollows with ⟨-, hnone⟩ | ⟨outcome, hchannel, -⟩
  · simp [hreceipt] at hnone
  · rw [(hcoherent.busy _ hsignal).silent] at hchannel
    cases hchannel

/-- With a call that returns, a pair of the refresh that it has waited for reaches the handle, or
none does. -/
theorem Coherent.reaching?_returned (hcoherent : Coherent c) (hseat : seat ∈ c.seats) (handle : ℕ)
    (outcome : Outcome) : c.reaching? handle (.returned seat.call outcome) = none ∨
      c.reaching? handle (.returned seat.call outcome) = some seat.cycle := by
  cases outcome with
  | failure failure => exact Or.inl rfl
  | pair pair =>
    by_cases hway : seat.call.way = .handle handle
    · exact Or.inr (by simp [reaching?, hway, hcoherent.seat?_eq hseat])
    · exact Or.inl (by simp [reaching?, hway])

/-- Notes bring nothing to a handle. -/
theorem filterMap_reaching?_notes (c : Cache) (handle : ℕ) (notes : List Note) :
    (notes.map Effect.noted).filterMap (c.reaching? handle) = [] := by
  simp [List.filterMap_map, Function.comp_def, reaching?]

/-- With the end of a refresh, its own pair reaches the handle, or none does. -/
theorem Ending.reaching (hcoherent : Coherent c) (hseat : seat ∈ c.seats) {outcome : Outcome}
    {tracked : TrackedPair} {window : Window} {rest : List Effect}
    (hending : Ending c seat event outcome tracked window rest) (handle followers : ℕ) :
    (c.abandonment ++ .finished seat.cycle outcome followers :: rest).filterMap
        (c.reaching? handle) = [] ∨
      (c.abandonment ++ .finished seat.cycle outcome followers :: rest).filterMap
        (c.reaching? handle) = [seat.cycle] := by
  have habandonment : c.abandonment.filterMap (c.reaching? handle) = [] := by
    rw [List.filterMap_eq_nil_iff]
    intro e he
    rw [mem_abandonment he]
    rfl
  have hfinished : c.reaching? handle (.finished seat.cycle outcome followers) = none := rfl
  rw [List.filterMap_append, habandonment, List.nil_append, List.filterMap_cons, hfinished]
  rcases hending.returned_or_drop with ⟨note, rfl⟩ | ⟨-, -, note, rfl⟩
  · have hnote : c.reaching? handle (.noted note) = none := rfl
    rcases hcoherent.reaching?_returned hseat handle outcome with hnone | hsome
    · exact Or.inl (by simp [hnote, hnone])
    · exact Or.inr (by simp [hnote, hsome])
  · exact Or.inl rfl

/-- The refreshes whose pairs have reached a handle are in order, and none of them is later than one
that somebody waits for. -/
structure Ascending (c : Cache) (reached : List ℕ) : Prop where
  coherent : Coherent c
  sorted : reached.Pairwise (· ≤ ·)
  begun : ∀ cycle ∈ reached, cycle < c.cycles.length
  behind : ∀ cycle ∈ reached, ∀ s ∈ c.seats, cycle ≤ s.cycle
  /-- Whoever has yet to be told is before everybody else. -/
  late : ∀ s ∈ c.seats, c.cohort.signal ≠ some s.cycle → ∀ t ∈ c.seats, s.cycle ≤ t.cycle

namespace Ascending

variable {reached : List ℕ}

/-- Nothing has reached a handle before anything was fetched. -/
theorem ofProfile (p : Profile) : Ascending (.ofProfile p) [] where
  coherent := Coherent.fresh _ _ _
  sorted := List.Pairwise.nil
  begun _ hmem := absurd hmem List.not_mem_nil
  behind _ hmem := absurd hmem List.not_mem_nil
  late _ hs := absurd hs List.not_mem_nil

/-- The pair of a refresh that nobody who waits is before may reach the handle. -/
theorem reach (h : Ascending c reached) (hseat : seat ∈ c.seats)
    (hfirst : ∀ s ∈ c.seats, seat.cycle ≤ s.cycle) :
    Ascending c (reached ++ [seat.cycle]) := by
  refine ⟨h.coherent, ?_, ?_, ?_, h.late⟩
  · rw [List.pairwise_append]
    refine ⟨h.sorted, List.pairwise_singleton _ _, fun cycle hmem last hlast => ?_⟩
    rw [List.mem_singleton.mp hlast]
    exact h.behind cycle hmem seat hseat
  · intro cycle hmem
    rcases List.mem_append.mp hmem with hold | hnew
    · exact h.begun cycle hold
    · rw [List.mem_singleton.mp hnew]
      exact h.coherent.cycle_lt_length hseat
  · intro cycle hmem s hs
    rcases List.mem_append.mp hmem with hold | hnew
    · exact h.behind cycle hold s hs
    · rw [List.mem_singleton.mp hnew]
      exact hfirst s hs

/-- Fewer may wait, as long as those who go on waiting have yet to be told, or had to be before. -/
theorem fewer (h : Ascending c reached) (hcoherent : Coherent c')
    (hcycles : c'.cycles.length = c.cycles.length) (hseats : ∀ s ∈ c'.seats, s ∈ c.seats)
    (hlate : ∀ s ∈ c'.seats, c'.cohort.signal ≠ some s.cycle →
      ∀ t ∈ c'.seats, s.cycle ≤ t.cycle) : Ascending c' reached := by
  refine ⟨hcoherent, h.sorted, fun cycle hmem => ?_, fun cycle hmem s hs => ?_, hlate⟩
  · rw [hcycles]
    exact h.begun cycle hmem
  · exact h.behind cycle hmem s (hseats s hs)

/-- One more may wait for the last refresh that has begun. -/
theorem join (h : Ascending c reached) (seat : Seat) (hcoherent : Coherent c')
    (hcycles : c.cycles.length ≤ c'.cycles.length) (hlast : seat.cycle + 1 = c'.cycles.length)
    (hseats : c'.seats = c.seats ++ [seat]) (hsignal : c'.cohort.signal = some seat.cycle)
    (hbefore : c.cohort.signal = none ∨ c.cohort.signal = some seat.cycle) :
    Ascending c' reached := by
  have hold : ∀ s ∈ c.seats, s.cycle ≤ seat.cycle := by
    intro s hs
    have hlt := h.coherent.cycle_lt_length hs
    omega
  refine ⟨hcoherent, h.sorted, fun cycle hmem => ?_, fun cycle hmem s hs => ?_,
    fun s hs hlate t ht => ?_⟩
  · exact Nat.lt_of_lt_of_le (h.begun cycle hmem) hcycles
  · rw [hseats] at hs
    rcases List.mem_append.mp hs with hs | hs
    · exact h.behind cycle hmem s hs
    · rw [List.mem_singleton.mp hs]
      have hlt := h.begun cycle hmem
      omega
  · rw [hsignal] at hlate
    rw [hseats] at hs ht
    rcases List.mem_append.mp hs with hs | hs
    · rcases List.mem_append.mp ht with ht | ht
      · refine h.late s hs ?_ t ht
        rcases hbefore with hnone | hsame
        · simp [hnone]
        · rwa [hsame]
      · rw [List.mem_singleton.mp ht]
        exact hold s hs
    · rw [List.mem_singleton.mp hs] at hlate
      exact absurd rfl hlate

/-- The end of a refresh keeps the order if everybody waits for this one. -/
theorem finish (h : Ascending c reached) (hseat : seat ∈ c.seats) (hleads : seat.role = .leader)
    {outcome : Outcome} {tracked : TrackedPair} {window : Window} {rest : List Effect}
    (hending : Ending c seat event outcome tracked window rest) (htold : c.Told)
    (hcoherent : Coherent (leave (Cache.finish { c with tracked, window } outcome) seat.call)) :
    Ascending (leave (Cache.finish { c with tracked, window } outcome) seat.call)
      (reached ++ (c.abandonment ++
        .finished seat.cycle outcome c.cohort.followers :: rest).filterMap
          (c.reaching? handle)) := by
  have hsame : ∀ s ∈ c.seats, s.cycle = seat.cycle := by
    intro s hs
    exact Option.some.inj ((htold s hs).symm.trans (h.coherent.of_leader hseat hleads).1)
  have hcycles : (Cache.finish { c with tracked, window } outcome).cycles.length =
      c.cycles.length := by
    have hstarts := congrArg List.length (startedAt_finish { c with tracked, window } outcome)
    rwa [List.length_map, List.length_map] at hstarts
  have hfewer : ∀ {reached}, Ascending c reached →
      Ascending (leave (Cache.finish { c with tracked, window } outcome) seat.call) reached := by
    intro reached hreached
    refine hreached.fewer hcoherent hcycles (fun s hs => List.mem_of_mem_filter hs)
      fun s hs _ t ht => Nat.le_of_eq ?_
    rw [hsame s (List.mem_of_mem_filter hs), hsame t (List.mem_of_mem_filter ht)]
  rcases hending.reaching h.coherent hseat handle c.cohort.followers with hnone | hone
  · rw [hnone, List.append_nil]
    exact hfewer h
  · rw [hone]
    exact hfewer (h.reach hseat fun s hs => Nat.le_of_eq (hsame s hs).symm)

/-- A call that stops waiting keeps the order. -/
theorem leave (h : Ascending c reached) {call : Call} (hcoherent : Coherent (c.leave call)) :
    Ascending (c.leave call) reached := by
  have hstays : ∀ s ∈ (c.leave call).seats, s ∈ c.seats := fun s hs => List.mem_of_mem_filter hs
  exact h.fewer hcoherent rfl hstays
    fun s hs hlate t ht => h.late s (hstays s hs) hlate t (hstays t ht)

/-- A follower that is told keeps the order: nobody who waits is before it. -/
theorem receive (h : Ascending c reached) (hseat : seat ∈ c.seats)
    (hfollows : seat.role = .follower) {receipt : Receipt Outcome}
    (hreceipt : c.receipt? seat = some receipt) (hcoherent : Coherent (c.leave seat.call)) :
    Ascending (c.leave seat.call)
      (reached ++ [.returned seat.call receipt.outcome].filterMap (c.reaching? handle)) := by
  have hfirst := h.late seat hseat (h.coherent.late_of_receipt hseat hfollows hreceipt)
  rcases h.coherent.reaching?_returned hseat handle receipt.outcome with hnone | hone
  · rw [List.filterMap_cons, hnone, List.filterMap_nil, List.append_nil]
    exact h.leave hcoherent
  · rw [List.filterMap_cons, hone, List.filterMap_nil]
    exact (h.reach hseat hfirst).leave hcoherent

/-- Every move keeps the order in which pairs reach a handle, if nobody has yet to be told of an
earlier refresh than the one that it ends. -/
theorem move (h : Ascending c reached) (hmove : Move c event c' new) (htold : Ends new → c.Told)
    (handle : ℕ) : Ascending c' (reached ++ new.filterMap (c.reaching? handle)) := by
  have hcoherent := h.coherent.move hmove
  cases hmove with
  | still =>
    rw [List.filterMap_nil, List.append_nil]
    exact h
  | lead call hfree hidle =>
    have hnone : ([.joined call .leader c.cycles.length, .noted (.refreshing c.terms.path),
        .readStarted c.terms.path] : List Effect).filterMap (c.reaching? handle) = [] := rfl
    rw [hnone, List.append_nil]
    exact h.join ⟨call, c.cycles.length, .leader, 0⟩ hcoherent (by simp) (by simp) rfl rfl
      (Or.inl (h.coherent.signal_eq_none hidle))
  | follow call cycle hfree hsignal =>
    have hnone : ([.joined call .follower cycle] : List Effect).filterMap (c.reaching? handle) =
        [] := rfl
    rw [hnone, List.append_nil]
    exact h.join ⟨call, cycle, .follower, c.place cycle⟩ hcoherent (Nat.le_refl _)
      (h.coherent.busy _ hsignal).last rfl rfl (Or.inr hsignal)
  | finish hseat hleads hending =>
    exact h.finish hseat hleads hending
      (htold ⟨_, _, _, List.mem_append_right _ (List.mem_cons_self ..)⟩) hcoherent
  | receive hseat hfollows hreceipt => exact h.receive hseat hfollows hreceipt hcoherent
  | leave hseat hfollows =>
    rw [List.filterMap_nil, List.append_nil]
    exact h.leave hcoherent
  | advance =>
    rw [List.filterMap_nil, List.append_nil]
    exact h.fewer hcoherent rfl (fun _ hs => hs) h.late

end Ascending

end Cache

namespace Provider

/-- The refreshes whose pairs reach a handle by events, one after the other. -/
def reaching (q : Provider) (handle : ℕ) : List Event → List ℕ
  | [] => []
  | event :: rest =>
    (q.step event).2.filterMap (q.cache.reaching? handle) ++ (q.step event).1.reaching handle rest

/-- No refresh ends while somebody has yet to be told of an earlier one. -/
def TellsInTime (q : Provider) : List Event → Prop
  | [] => True
  | event :: rest =>
    (Cache.Ends (q.step event).2 → q.cache.Told) ∧ (q.step event).1.TellsInTime rest

/-- What a handle hands out of its slot is not brought to it. -/
theorem reaching?_handOut {q : Provider} {call : Call} {pair : KeyPair}
    (hstep : q.step (.refresh (.join call)) = (q, [.returned call (.pair pair)])) (handle : ℕ) :
    q.cache.reaching? handle (.returned call (.pair pair)) = none := by
  cases hseat : q.cache.seat? call with
  | none => simp [Cache.reaching?, hseat]
  | some seat => simp [step, hseat] at hstep

/-- An event keeps the order in which pairs reach a handle. -/
theorem ascending_step {q : Provider} {reached : List ℕ} (h : q.cache.Ascending reached)
    {event : Event} {next : Provider} {effects : List Effect}
    (hstep : q.step event = (next, effects))
    (htold : Cache.Ends effects → q.cache.Told) (handle : ℕ) :
    next.cache.Ascending (reached ++ effects.filterMap (q.cache.reaching? handle)) := by
  have hmove := q.step_move event
  rw [hstep] at hmove
  cases hmove with
  | handOut call other pair =>
    rw [List.filterMap_cons, reaching?_handOut hstep, List.filterMap_nil, List.append_nil]
    exact h
  | @refresh happened notes c' moved hmoved =>
    have hsame : (notes.map Effect.noted ++ moved).filterMap (q.cache.reaching? handle) =
        moved.filterMap (q.cache.reaching? handle) := by
      rw [List.filterMap_append, Cache.filterMap_reaching?_notes, List.nil_append]
    have hascending := h.move hmoved (fun ⟨cycle, outcome, followers, hmem⟩ =>
      htold ⟨cycle, outcome, followers, List.mem_append_right _ hmem⟩) handle
    rw [← hsame] at hascending
    exact hascending
  | forget other =>
    rw [List.filterMap_nil, List.append_nil]
    exact h

/-- When everybody is told in time, the pairs that reach a handle come from refreshes in order. -/
theorem reaching_sorted (p : Profile) (handles : ℕ) (events : List Event) (handle : ℕ)
    (h : TellsInTime (.fresh (.ofProfile p) handles) events) :
    (reaching (.fresh (.ofProfile p) handles) handle events).Pairwise (· ≤ ·) := by
  suffices hrun : ∀ (q : Provider) (reached : List ℕ), q.cache.Ascending reached →
      q.TellsInTime events → (reached ++ q.reaching handle events).Pairwise (· ≤ ·) from
    hrun _ [] (.ofProfile p) h
  clear h
  induction events with
  | nil =>
    intro q reached hascending _
    rw [reaching, List.append_nil]
    exact hascending.sorted
  | cons event rest ih =>
    rintro q reached hascending ⟨htold, hrest⟩
    rw [reaching, ← List.append_assoc]
    exact ih _ _ (ascending_step hascending rfl htold handle) hrest

/-- A follower that is resumed after a whole later refresh puts the older pair in place of the newer
one, and the handle goes on handing it out. -/
theorem reaching_goes_back :
    let p : Profile :=
      ⟨"http://vault.test:8200", "root", "secret/aws", "ak", "sk", 6000, 5000, 5000, none, true⟩
    let older : Secret := [("ak", .text "AKIA1"), ("sk", .text "S1")]
    let newer : Secret := [("ak", .text "AKIA2"), ("sk", .text "S2")]
    let events : List Event :=
      [.refresh (.join ⟨0, 1, .fetch⟩), .refresh (.join ⟨1, 1, .handle 0⟩),
        .refresh (.answer ⟨0, 1, .fetch⟩ (.secret older)), .refresh (.join ⟨2, 1, .handle 0⟩),
        .refresh (.answer ⟨2, 1, .handle 0⟩ (.secret newer)), .refresh (.wake ⟨1, 1, .handle 0⟩)]
    let reached := (fresh (.ofProfile p) 1).run events
    reaching (fresh (.ofProfile p) 1) 0 events = [1, 0] ∧
      reached.1.cache.snapshot = ⟨"AKIA2", "S2", KeyPair.vaultProvider⟩ ∧
      (reached.1.step (.refresh (.join ⟨3, 1, .handle 0⟩))).2 =
        [.returned ⟨3, 1, .handle 0⟩ (.pair ⟨"AKIA1", "S1", KeyPair.vaultProvider⟩)] := by
  decide

end Provider

end FreshKeys.Refresh
