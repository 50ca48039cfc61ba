import FreshKeys.Proofs.Refresh.Delivery
import FreshKeys.Refresh.Provider

/-!
# The moves of a provider

A provider does one of three things. A handle hands out the pair in its slot, and no refresh hears
of it; or the cache makes a move, and the pairs that return through handles go into their slots; or
a slot is emptied. Properties of runs with handles are proved from these rules, by one induction
over the events.
-/

namespace FreshKeys.Refresh

/-- Notes are seen beside what happens to the refreshes. -/
theorem Effect.notes_asides (notes : List Note) :
    ∀ e ∈ notes.map Effect.noted, e.isAside = true := by
  simp [Effect.isAside]

/-- Notes and returns change nothing for those who wait. -/
theorem Cache.Delivering.asides {c : Cache} {effects : List Effect} (h : c.Delivering effects)
    {new : List Effect} (hnew : ∀ e ∈ new, e.isAside = true) : c.Delivering (effects ++ new) := by
  refine ⟨fun s hs => ?_, fun cycle outcome hchannel => ?_⟩
  · obtain ⟨since, hjoined, hfinished⟩ := h.seated s hs
    refine ⟨since ++ new, hjoined.append fun role cycle hmem => ?_,
      fun outcome followers hmem => ?_⟩
    · cases hnew _ hmem
    · rcases List.mem_append.mp hmem with hold | hmem
      · exact List.mem_append_left _ (hfinished outcome followers hold)
      · cases hnew _ hmem
  · obtain ⟨followers, hmem⟩ := h.sent cycle outcome hchannel
    exact ⟨followers, List.mem_append_left _ hmem⟩

/-- Whoever returns has had a seat: a leader returns what it makes of its refresh, a follower that
wakes what it is given. -/
theorem Cache.Move.returned_cases {c c' : Cache} {event : Event} {new : List Effect}
    (hmove : Cache.Move c event c' new) {call : Call} {outcome : Outcome}
    (hmem : .returned call outcome ∈ new) :
    ∃ s ∈ c.seats, s.call = call ∧
      ((s.role = .leader ∧ .finished s.cycle outcome c.cohort.followers ∈ new) ∨
        (s.role = .follower ∧ event = .wake call ∧
          ∃ receipt, c.receipt? s = some receipt ∧ receipt.outcome = outcome)) := by
  cases hmove with
  | still => cases hmem
  | lead => simp at hmem
  | follow => simp at hmem
  | @finish _ seat reached _ _ rest hseat hleads hending =>
    have hrest : .returned call outcome ∈ rest := by
      rcases List.mem_append.mp hmem with hnote | hmem
      · cases mem_abandonment hnote
      · simpa using hmem
    rcases hending.returned_or_drop with ⟨note, rfl⟩ | ⟨-, -, note, rfl⟩
    · obtain ⟨rfl, rfl⟩ : call = seat.call ∧ outcome = reached := by simpa using hrest
      exact ⟨seat, hseat, rfl, Or.inl ⟨hleads, by simp⟩⟩
    · simp at hrest
  | @receive seat receipt hseat hfollows hreceipt =>
    obtain ⟨rfl, rfl⟩ : call = seat.call ∧ outcome = receipt.outcome := by simpa using hmem
    exact ⟨seat, hseat, rfl, Or.inr ⟨hfollows, rfl, receipt, hreceipt, rfl⟩⟩
  | leave => cases hmem
  | advance => cases hmem

/-- Who has a seat after a move had it before, or has joined with it. -/
theorem Cache.Move.seat_before {c c' : Cache} {event : Event} {new : List Effect}
    (hmove : Cache.Move c event c' new) {s : Seat} (hs : s ∈ c'.seats) :
    s ∈ c.seats ∨ event = .join s.call := by
  cases hmove with
  | still => exact Or.inl hs
  | lead =>
    refine (List.mem_append.mp hs).imp_right fun hnew => ?_
    rw [List.mem_singleton.mp hnew]
  | follow =>
    refine (List.mem_append.mp hs).imp_right fun hnew => ?_
    rw [List.mem_singleton.mp hnew]
  | finish => exact Or.inl (List.mem_of_mem_filter hs)
  | receive => exact Or.inl (List.mem_of_mem_filter hs)
  | leave => exact Or.inl (List.mem_of_mem_filter hs)
  | advance => exact Or.inl hs

/-- A call without a seat that asks a cache joins a refresh. -/
theorem Cache.joined_of_join (c : Cache) {call : Call} (hfree : c.seat? call = none) :
    ∃ role cycle, .joined call role cycle ∈ (c.step (.join call)).2 := by
  rcases cohort_join_cases c.cohort c.cycles.length with ⟨hjoin, -⟩ | ⟨cycle, hjoin, -⟩
  · exact ⟨.leader, c.cycles.length, by simp [Cache.step, hfree, Cache.join, hjoin]⟩
  · exact ⟨.follower, cycle, by simp [Cache.step, hfree, Cache.join, hjoin]⟩

namespace Provider

/-- What a provider does on an event: the state after it and the effects. -/
inductive Move (p : Provider) : Event → Provider → List Effect → Prop where
  /-- A handle hands out the valid pair in its slot. -/
  | handOut (call : Call) (handle : ℕ) (pair : KeyPair) (hway : call.way = .handle handle)
    (hstored : p.stored? handle = some pair) :
    Move p (.refresh (.join call)) p [.returned call (.pair pair)]
  /-- The cache makes a move. -/
  | refresh (event : Refresh.Event) (notes : List Note) {c' : Cache} {moved : List Effect}
    (hmove : Cache.Move p.cache event c' moved) :
    Move p (.refresh event) ⟨c', moved.foldl keep p.slots⟩ (notes.map .noted ++ moved)
  /-- A handle forgets its pair. -/
  | forget (handle : ℕ) : Move p (.expire handle) { p with slots := p.slots.set handle none } []

/-- A handle that may hand out a pair has it in its slot, and the provider's window is open. -/
theorem stored?_eq_some_iff {q : Provider} {handle : ℕ} {pair : KeyPair} :
    q.stored? handle = some pair ↔ q.isExpired = false ∧ q.slots[handle]? = some (some pair) := by
  unfold stored?
  cases q.isExpired <;> simp [Option.join_eq_some_iff]

/-- A call through a handle with a valid pair returns it at once; any other call joins a refresh,
perhaps with a note. -/
theorem ask_cases (p : Provider) (call : Call) :
    (∃ handle pair, call.way = .handle handle ∧ p.stored? handle = some pair ∧
        p.ask call = (p, [.returned call (.pair pair)])) ∨
      ∃ notes : List Note, (∀ handle, call.way = .handle handle → p.stored? handle = none) ∧
        p.ask call = ((p.refresh (.join call)).1,
          notes.map .noted ++ (p.refresh (.join call)).2) := by
  unfold ask
  cases hway : call.way with
  | handle handle =>
    cases hstored : p.stored? handle with
    | some pair => exact Or.inl ⟨handle, pair, rfl, hstored, by simp [Way.handle?, hstored]⟩
    | none =>
      refine Or.inr ⟨[.retrieving], ?_, by simp [Way.handle?, hstored]⟩
      rintro other ⟨rfl⟩
      exact hstored
  | _ => exact Or.inr ⟨[], by simp [Way.handle?]⟩

/-- A step is a move. -/
theorem step_move (p : Provider) (event : Event) :
    Move p event (p.step event).1 (p.step event).2 := by
  cases event with
  | expire handle => exact Move.forget handle
  | refresh happened =>
    have hmove := Move.refresh happened [] (p.cache.step_move happened)
    cases happened with
    | join call =>
      cases hfree : p.cache.seat? call with
      | some seat =>
        simp only [step, hfree]
        exact Move.refresh _ [] (Cache.Move.still _)
      | none =>
        simp only [step, hfree]
        rcases p.ask_cases call with ⟨handle, pair, hway, hstored, hask⟩ | ⟨notes, -, hask⟩
        · rw [hask]
          exact Move.handOut call handle pair hway hstored
        · rw [hask]
          exact Move.refresh _ notes (p.cache.step_move _)
    | _ => exact hmove

/-- A call that begins through a handle returns the pair that the handle may hand out; if there is
none, it joins a refresh and waits. -/
theorem begin_cases (p : Provider) {call : Call} {handle : ℕ} (hway : call.way = .handle handle)
    (hfree : p.cache.seat? call = none) :
    (∃ pair, p.stored? handle = some pair ∧
        p.step (.refresh (.join call)) = (p, [.returned call (.pair pair)])) ∨
      (p.stored? handle = none ∧
        (∃ role cycle, .joined call role cycle ∈ (p.step (.refresh (.join call))).2) ∧
          ∀ outcome, .returned call outcome ∉ (p.step (.refresh (.join call))).2) := by
  simp only [step, hfree]
  rcases p.ask_cases call with ⟨other, pair, hother, hstored, hask⟩ | ⟨notes, hempty, hask⟩
  · obtain rfl := Way.handle.inj (hother.symm.trans hway)
    exact Or.inl ⟨pair, hstored, hask⟩
  · obtain ⟨role, cycle, hmem⟩ := p.cache.joined_of_join hfree
    rw [hask]
    refine Or.inr ⟨hempty handle hway, ⟨role, cycle, List.mem_append_right _ hmem⟩, ?_⟩
    intro outcome hreturned
    have hmoved : .returned call outcome ∈ (p.cache.step (.join call)).2 := by
      simpa [refresh] using hreturned
    obtain ⟨s, hs, hcall, -⟩ := (p.cache.step_move _).returned_cases hmoved
    exact Cache.seat?_eq_none_iff.mp hfree s hs hcall

/-- With every event of a provider its cache makes one move; what else there is to see are notes and
returns. -/
theorem Move.cache_move {p p' : Provider} {event : Event} {new : List Effect}
    (h : Move p event p' new) :
    ∃ happened asides moved, Cache.Move p.cache happened p'.cache moved ∧
      new = asides ++ moved ∧ ∀ e ∈ asides, e.isAside = true := by
  cases h with
  | handOut call handle pair =>
    exact ⟨.join call, _, [], Cache.Move.still _, (List.append_nil _).symm,
      by simp [Effect.isAside]⟩
  | refresh happened notes hmove => exact ⟨happened, _, _, hmove, rfl, Effect.notes_asides notes⟩
  | forget handle => exact ⟨.advance 0, [], [], Cache.Move.still _, rfl, by simp⟩

/-- What one effect does to a slot: a pair that returns through its handle goes in, and nothing
else is touched. -/
theorem keep_getElem? (slots : List (Option KeyPair)) (e : Effect) (handle : ℕ) :
    (∃ call pair, call.way = .handle handle ∧ e = .returned call (.pair pair) ∧
        (keep slots e)[handle]? = slots[handle]?.map fun _ => some pair) ∨
      ((∀ call pair, call.way = .handle handle → e ≠ .returned call (.pair pair)) ∧
        (keep slots e)[handle]? = slots[handle]?) := by
  have hother : (∀ call pair, e ≠ .returned call (.pair pair)) →
      (∀ call pair, call.way = .handle handle → e ≠ .returned call (.pair pair)) :=
    fun h call pair _ => h call pair
  cases e with
  | returned call outcome =>
    cases outcome with
    | failure failure => exact Or.inr ⟨hother (by simp), rfl⟩
    | pair pair =>
      by_cases hway : call.way = .handle handle
      · refine Or.inl ⟨call, pair, hway, rfl, ?_⟩
        simp only [keep, hway, Way.handle?, List.getElem?_set_self']
        rfl
      · refine Or.inr ⟨?_, ?_⟩
        · rintro _ _ hsame ⟨rfl, -⟩
          exact hway hsame
        · cases hhandle : call.way with
          | handle other =>
            have hne : other ≠ handle := fun heq => hway (heq ▸ hhandle)
            simp [keep, hhandle, Way.handle?, List.getElem?_set_ne hne]
          | _ => simp [keep, hhandle, Way.handle?]
  | _ => exact Or.inr ⟨hother (by simp), rfl⟩

/-- No effect adds a slot or takes one away. -/
theorem length_keep (slots : List (Option KeyPair)) (e : Effect) :
    (keep slots e).length = slots.length := by
  unfold keep
  split
  · split <;> simp
  · rfl

/-- There are as many slots as before, whatever is kept in them. -/
theorem length_keep_all (slots : List (Option KeyPair)) (effects : List Effect) :
    (effects.foldl keep slots).length = slots.length := by
  induction effects generalizing slots with
  | nil => rfl
  | cons e rest ih => rw [List.foldl_cons, ih, length_keep]

/-- A slot holds what it held, or what a call has returned through its handle. -/
theorem slot_of_keep {effects : List Effect} {slots : List (Option KeyPair)} {handle : ℕ}
    {pair : KeyPair} (h : (effects.foldl keep slots)[handle]? = some (some pair)) :
    slots[handle]? = some (some pair) ∨
      ∃ call, call.way = .handle handle ∧ .returned call (.pair pair) ∈ effects := by
  induction effects generalizing slots with
  | nil => exact Or.inl h
  | cons e rest ih =>
    rcases ih h with hslot | ⟨call, hway, hmem⟩
    · rcases keep_getElem? slots e handle with ⟨call, kept, hway, rfl, hkept⟩ | ⟨-, hkept⟩
      · rw [hkept, Option.map_eq_some_iff] at hslot
        obtain ⟨-, -, hpair⟩ := hslot
        obtain rfl := Option.some.inj hpair
        exact Or.inr ⟨call, hway, List.mem_cons_self ..⟩
      · exact Or.inl (hkept ▸ hslot)
    · exact Or.inr ⟨call, hway, List.mem_cons_of_mem _ hmem⟩

/-- A slot that is full stays full, and a pair that a call returns through its handle fills it. -/
theorem full_of_keep {effects : List Effect} {slots : List (Option KeyPair)} {handle : ℕ}
    (hhandle : handle < slots.length)
    (h : (∃ pair, slots[handle]? = some (some pair)) ∨
      ∃ call pair, call.way = .handle handle ∧ .returned call (.pair pair) ∈ effects) :
    ∃ pair, (effects.foldl keep slots)[handle]? = some (some pair) := by
  induction effects generalizing slots with
  | nil =>
    rcases h with hfull | ⟨call, pair, -, hmem⟩
    · exact hfull
    · cases hmem
  | cons e rest ih =>
    refine ih (by rwa [length_keep]) ?_
    rcases keep_getElem? slots e handle with ⟨call, kept, -, rfl, hkept⟩ | ⟨hother, hkept⟩
    · exact Or.inl ⟨kept, by rw [hkept, List.getElem?_eq_getElem hhandle, Option.map_some]⟩
    · rw [hkept]
      refine h.imp_right fun ⟨call, pair, hway, hmem⟩ => ⟨call, pair, hway, ?_⟩
      exact (List.mem_cons.mp hmem).resolve_left (hother call pair hway).symm

/-- What every move on one of the events keeps of a provider and of the effects so far holds after
all of them. -/
theorem run_induction {P : Provider → List Effect → Prop} (events : List Event)
    (hmove : ∀ {p event p' new} (effects : List Effect), event ∈ events →
      Move p event p' new → P p effects → P p' (effects ++ new))
    {p : Provider} {effects : List Effect} (hstart : P p effects) :
    P (p.run events).1 (effects ++ (p.run events).2) := by
  induction events generalizing p effects with
  | nil => simpa [run] using hstart
  | cons event rest ih =>
    have hfirst := hmove effects (List.mem_cons_self ..) (p.step_move event) hstart
    have hrest := ih (fun effects hmem => hmove effects (List.mem_cons_of_mem _ hmem)) hfirst
    simpa [run, List.append_assoc] using hrest

end Provider

end FreshKeys.Refresh
