import FreshKeys.Proofs.Refresh.Providers

/-!
# What a handle hands out after it was told to forget

A handle that is told to forget its pair has an empty slot, and the next call through it should ask
for a fresh pair. A call that was under way through the same handle does not hear of it: when it
returns, it fills the slot again. So the next call asks exactly if no such call has brought a pair
in between, or if the window is over by then.
-/

namespace FreshKeys.Refresh.Provider

/-- Whether an event begins a call through a handle, or tells the handle to forget. -/
def Event.concerns (handle : ℕ) : Event → Bool
  | .refresh (.join call) => call.way == .handle handle
  | .refresh _ => false
  | .expire other => other == handle

/-- How a provider is after some effects since a handle was told to forget, while the calls that sit
in `p` were under way, and nobody asks the handle any more. -/
structure Forgotten (p : Provider) (handle : ℕ) (q : Provider) (effects : List Effect) : Prop where
  handle_lt : handle < q.slots.length
  /-- Who waits for the handle has waited before. -/
  seated : ∀ s ∈ q.cache.seats, s.call.way = .handle handle → ∃ t ∈ p.cache.seats, t.call = s.call
  late : ∀ call outcome, call.way = .handle handle → .returned call outcome ∈ effects →
    ∃ t ∈ p.cache.seats, t.call = call
  /-- The slot holds what was brought since, if anything was. -/
  slot : ∀ pair, q.slots[handle]? = some (some pair) →
    ∃ call, call.way = .handle handle ∧ .returned call (.pair pair) ∈ effects
  full : ∀ call pair, call.way = .handle handle → .returned call (.pair pair) ∈ effects →
    ∃ kept, q.slots[handle]? = some (some kept)

namespace Forgotten

variable {p q q' : Provider} {handle : ℕ} {effects new : List Effect} {event : Event}

/-- A handle that is told to forget has an empty slot. -/
theorem start (p : Provider) (hhandle : handle < p.slots.length) :
    Forgotten p handle { p with slots := p.slots.set handle none } [] where
  handle_lt := by simpa using hhandle
  seated s hs _ := ⟨s, hs, rfl⟩
  late _ _ _ hmem := absurd hmem List.not_mem_nil
  slot pair hslot := by simp [hhandle] at hslot
  full _ _ _ hmem := absurd hmem List.not_mem_nil

/-- What happens to other handles, and to their slots, leaves the handle alone. -/
theorem other (h : Forgotten p handle q effects) {slots : List (Option KeyPair)}
    (hlength : slots.length = q.slots.length) (hslot : slots[handle]? = q.slots[handle]?)
    (hnew : ∀ call outcome, call.way = .handle handle → .returned call outcome ∉ new) :
    Forgotten p handle { q with slots } (effects ++ new) := by
  have hold : ∀ call outcome, call.way = .handle handle →
      .returned call outcome ∈ effects ++ new → .returned call outcome ∈ effects :=
    fun call outcome hway hmem => (List.mem_append.mp hmem).resolve_right (hnew call outcome hway)
  refine ⟨hlength ▸ h.handle_lt, h.seated,
    fun call outcome hway hmem => h.late call outcome hway (hold _ _ hway hmem),
    fun pair hpair => ?_, fun call pair hway hmem => ?_⟩
  · obtain ⟨call, hway, hmem⟩ := h.slot pair (hslot ▸ hpair)
    exact ⟨call, hway, List.mem_append_left _ hmem⟩
  · exact hslot ▸ h.full call pair hway (hold _ _ hway hmem)

/-- A call that returns through the handle was under way, and brings what the slot holds then. -/
theorem refresh (h : Forgotten p handle q effects) {happened : Refresh.Event} {notes : List Note}
    {c' : Cache} {moved : List Effect} (hquiet : (Event.refresh happened).concerns handle = false)
    (hmove : Cache.Move q.cache happened c' moved) :
    Forgotten p handle ⟨c', moved.foldl keep q.slots⟩ (effects ++ (notes.map .noted ++ moved)) := by
  have hlate : ∀ call outcome, call.way = .handle handle → .returned call outcome ∈ moved →
      ∃ t ∈ p.cache.seats, t.call = call := by
    intro call outcome hway hmem
    obtain ⟨s, hs, rfl, -⟩ := hmove.returned_cases hmem
    exact h.seated s hs hway
  refine ⟨(length_keep_all _ _).symm ▸ h.handle_lt, fun s hs hway => ?_,
    fun call outcome hway hmem => ?_, fun pair hslot => ?_, fun call pair hway hmem => ?_⟩
  · rcases hmove.seat_before hs with hbefore | rfl
    · exact h.seated s hbefore hway
    · simp [Event.concerns, hway] at hquiet
  · rcases List.mem_append.mp hmem with hold | hmem
    · exact h.late call outcome hway hold
    · exact hlate call outcome hway (by simpa using hmem)
  · rcases slot_of_keep hslot with hold | ⟨call, hway, hmem⟩
    · obtain ⟨call, hway, hmem⟩ := h.slot pair hold
      exact ⟨call, hway, List.mem_append_left _ hmem⟩
    · exact ⟨call, hway, by simp [hmem]⟩
  · refine full_of_keep h.handle_lt ?_
    rcases List.mem_append.mp hmem with hold | hmem
    · exact Or.inl (h.full call pair hway hold)
    · exact Or.inr ⟨call, pair, hway, by simpa using hmem⟩

/-- Every move that does not concern the handle keeps it so. -/
theorem move (h : Forgotten p handle q effects) (hquiet : event.concerns handle = false)
    (hmove : Move q event q' new) : Forgotten p handle q' (effects ++ new) := by
  cases hmove with
  | handOut asker other pair hway =>
    refine h.other rfl rfl fun call outcome hcall hmem => ?_
    obtain ⟨rfl, -⟩ : call = asker ∧ outcome = .pair pair := by simpa using hmem
    simp [Event.concerns, hcall] at hquiet
  | refresh happened notes hmove => exact h.refresh hquiet hmove
  | forget other =>
    have hne : other ≠ handle := by simpa [Event.concerns] using hquiet
    exact h.other (by simp) (List.getElem?_set_ne hne)
      fun _ _ _ hmem => absurd hmem List.not_mem_nil

end Forgotten

/-- A handle that was told to forget, and is not asked since, holds what the calls under way have
brought. -/
theorem forgotten_run (p : Provider) {handle : ℕ} (hhandle : handle < p.slots.length)
    (events : List Event) (hquiet : ∀ event ∈ events, event.concerns handle = false) :
    Forgotten p handle (p.run (.expire handle :: events)).1 (p.run (.expire handle :: events)).2 :=
  run_induction (P := Forgotten p handle) events
    (fun _ hmem hmove h => h.move (hquiet _ hmem) hmove) (Forgotten.start p hhandle)

/-- The next call through a handle that was told to forget joins a refresh, exactly if the window is
over or no call that was under way through the handle has brought a pair. Whatever it is handed out
instead was brought by such a call. -/
theorem joins_after_expire_iff (p : Provider) {handle : ℕ} (hhandle : handle < p.slots.length)
    (events : List Event) (hquiet : ∀ event ∈ events, event.concerns handle = false) {call : Call}
    (hway : call.way = .handle handle)
    (hfree : (p.run (.expire handle :: events)).1.cache.seat? call = none) :
    let before := p.run (.expire handle :: events)
    let after := before.1.step (.refresh (.join call))
    ((∃ role cycle, .joined call role cycle ∈ after.2) ↔
      before.1.isExpired = true ∨ ∀ late ∈ p.cache.seats, late.call.way = .handle handle →
        ∀ pair, .returned late.call (.pair pair) ∉ before.2) ∧
      ∀ outcome, .returned call outcome ∈ after.2 →
        ∃ late ∈ p.cache.seats, late.call.way = .handle handle ∧
          .returned late.call outcome ∈ before.2 := by
  intro before after
  have hforgotten := forgotten_run p hhandle events hquiet
  rcases before.1.begin_cases hway hfree with ⟨pair, hstored, hstep⟩ | ⟨hnone, hjoins, hwaits⟩
  · obtain ⟨hopen, hslot⟩ := stored?_eq_some_iff.mp hstored
    obtain ⟨asked, hasked, hmem⟩ := hforgotten.slot pair hslot
    obtain ⟨late, hlate, rfl⟩ := hforgotten.late asked _ hasked hmem
    have heffects : after.2 = [.returned call (.pair pair)] := congrArg Prod.snd hstep
    refine ⟨⟨fun hjoins => by simp [heffects] at hjoins, fun hidle => ?_⟩,
      fun outcome hreturned => ?_⟩
    · rcases hidle with hexpired | hidle
      · simp [hopen] at hexpired
      · exact absurd hmem (hidle late hlate hasked pair)
    · obtain rfl : outcome = .pair pair := by simpa [heffects] using hreturned
      exact ⟨late, hlate, hasked, hmem⟩
  · refine ⟨⟨fun _ => ?_, fun _ => hjoins⟩,
      fun outcome hreturned => absurd hreturned (hwaits outcome)⟩
    refine (Bool.eq_false_or_eq_true before.1.isExpired).imp_right fun hopen => ?_
    intro late hlate hasked pair hmem
    obtain ⟨kept, hkept⟩ := hforgotten.full late.call pair hasked hmem
    have hstored := stored?_eq_some_iff.mpr ⟨hopen, hkept⟩
    simp [hnone] at hstored

/-- A call that was under way and fails brings nothing, so the next one asks, within the window that
a call without a handle has opened. -/
theorem joins_after_expire_of_failed :
    let p : Profile :=
      ⟨"http://vault.test:8200", "root", "secret/aws", "ak", "sk", 6000, 5000, 5000, none, true⟩
    let secret : Secret := [("ak", .text "AKIA1"), ("sk", .text "S1")]
    let begun := (fresh (.ofProfile p) 1).run
      [.refresh (.join ⟨0, 1, .fetch⟩), .refresh (.answer ⟨0, 1, .fetch⟩ (.secret secret)),
        .refresh (.join ⟨1, 1, .handle 0⟩)]
    let before := begun.1.run [.expire 0, .refresh (.answer ⟨1, 1, .handle 0⟩ .nothing)]
    before.1.isExpired = false ∧ before.1.cache.seat? ⟨2, 1, .handle 0⟩ = none ∧
      ∃ role cycle, .joined ⟨2, 1, .handle 0⟩ role cycle ∈
        (before.1.step (.refresh (.join ⟨2, 1, .handle 0⟩))).2 := by
  intro p secret begun before
  have hfree : before.1.cache.seat? ⟨2, 1, .handle 0⟩ = none := by decide
  have heffects : before.2 =
      [.finished 1 (.failure (.sourceUnavailable "no data returned for secret/aws")) 0,
        .noted (.refreshFailed "secret source unavailable: no data returned for secret/aws" 0),
        .returned ⟨1, 1, .handle 0⟩
          (.failure (.sourceUnavailable "no data returned for secret/aws"))] := by
    decide
  refine ⟨by decide, hfree, ?_⟩
  refine (joins_after_expire_iff begun.1 (by decide) _ (by decide) rfl hfree).1.mpr (Or.inr ?_)
  intro late _ _ pair hmem
  have hbrought : .returned late.call (.pair pair) ∈ before.2 := hmem
  simp [heffects] at hbrought

/-- A call that was under way and succeeds undoes the forgetting: the next call is handed out the
pair that it has brought, and nothing is read. -/
theorem expire_undone :
    let p : Profile :=
      ⟨"http://vault.test:8200", "root", "secret/aws", "ak", "sk", 6000, 5000, 5000, none, true⟩
    let secret : Secret := [("ak", .text "AKIA1"), ("sk", .text "S1")]
    let events : List Event :=
      [.refresh (.join ⟨0, 1, .handle 0⟩), .expire 0,
        .refresh (.answer ⟨0, 1, .handle 0⟩ (.secret secret))]
    let before := (fresh (.ofProfile p) 1).run events
    before.1.cache.seat? ⟨1, 1, .handle 0⟩ = none ∧
      (before.1.step (.refresh (.join ⟨1, 1, .handle 0⟩))).2 =
        [.returned ⟨1, 1, .handle 0⟩ (.pair ⟨"AKIA1", "S1", KeyPair.vaultProvider⟩)] := by
  decide

end FreshKeys.Refresh.Provider
