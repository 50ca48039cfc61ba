import FreshKeys.Proofs.Merge
import FreshKeys.Proofs.Refresh.SingleFlight

/-!
# A cache remembers its last success

Of everything that happens to a cache, its pair and its window keep the last refresh that
succeeded: the values of the secret that was read, and when it was taken over. Whatever ends a
refresh otherwise leaves both alone. Instants only grow, so the window ends a span after the last
success, although it is only ever extended.
-/

namespace FreshKeys.Refresh

/-- Whether a refresh ended with a pair. -/
def Effect.isSuccess : Effect → Bool
  | .finished _ (.pair _) _ => true
  | _ => false

namespace Cache

/-- The success that an event is, with its instant. -/
def success (c : Cache) (event : Event) : List (ℕ × Event) :=
  if (c.step event).2.any Effect.isSuccess then [(c.now, event)] else []

/-- The successes of a run, each with its instant. -/
def successes (c : Cache) (events : List Event) : List (ℕ × Event) := c.along success events

/-- A move either takes over the two texts of a secret that answers the leader's read, which is a
success, or leaves the pair and the window alone. -/
theorem Move.kept_or_taken {c c' : Cache} {event : Event} {new : List Effect}
    (hmove : Move c event c' new) :
    (new.any Effect.isSuccess = false ∧ c'.tracked = c.tracked ∧ c'.window = c.window) ∨
      (new.any Effect.isSuccess = true ∧ ∃ s ∈ c.leaders, ∃ secret access hidden,
        event = .answer s.call (.secret secret) ∧
        secret.get? c.tracked.accessKey.name = some (.text access) ∧
        secret.get? c.tracked.secretKey.name = some (.text hidden) ∧
        c'.tracked = ⟨⟨c.tracked.accessKey.name, access⟩, ⟨c.tracked.secretKey.name, hidden⟩⟩ ∧
        c'.window = c.window.extend c.terms.ttl c.now) := by
  cases hmove with
  | still => exact Or.inl ⟨rfl, rfl, rfl⟩
  | lead => exact Or.inl ⟨rfl, rfl, rfl⟩
  | follow => exact Or.inl ⟨rfl, rfl, rfl⟩
  | @finish _ seat outcome _ _ rest hseat hleads hending =>
    have hquiet : c.abandonment.any Effect.isSuccess = false := by
      rw [List.any_eq_false]
      intro e he
      simp [mem_abandonment he, Effect.isSuccess]
    cases hending with
    | @taken _ secret tracked hfetched hmerge =>
      obtain ⟨access, hidden, haccess, hhidden, rfl⟩ := TrackedPair.merge_eq_ok_iff.mp hmerge
      refine Or.inr ⟨by simp [Effect.isSuccess], seat, mem_leaders.mpr ⟨hseat, hleads⟩, ?_⟩
      exact ⟨secret, access, hidden, hfetched.eq_answer, haccess, hhidden, rfl, rfl⟩
    | refused => exact Or.inl ⟨by simp [hquiet, Effect.isSuccess], rfl, rfl⟩
    | failed => exact Or.inl ⟨by simp [hquiet, Effect.isSuccess], rfl, rfl⟩
    | cancelled => exact Or.inl ⟨by simp [hquiet, Effect.isSuccess], rfl, rfl⟩
  | receive => exact Or.inl ⟨rfl, rfl, rfl⟩
  | leave => exact Or.inl ⟨rfl, rfl, rfl⟩
  | advance => exact Or.inl ⟨rfl, rfl, rfl⟩

/-- What a cache of a profile remembers of the successes so far. -/
structure Remembers (p : Profile) (c : Cache) (history : List (ℕ × Event)) : Prop where
  accessKeyName : c.tracked.accessKey.name = p.accessKeyName
  secretKeyName : c.tracked.secretKey.name = p.secretKeyName
  ttl : c.terms.ttl = p.ttl
  bounded : ∀ last, c.window.validUntil = some last → last ≤ c.now + p.ttl
  /-- Before the first success there are no values and no window. -/
  empty : history = [] →
    c.snapshot = ⟨"", "", KeyPair.vaultProvider⟩ ∧ c.window.validUntil = none
  /-- After it, the values are those of the secret that was read last with success, and the window
  ends the profile's span after that. -/
  last : ∀ time event, history.getLast? = some (time, event) →
    ∃ call secret access hidden, event = .answer call (.secret secret) ∧
      secret.get? p.accessKeyName = some (.text access) ∧
      secret.get? p.secretKeyName = some (.text hidden) ∧
      c.snapshot = ⟨access, hidden, KeyPair.vaultProvider⟩ ∧
      c.window.validUntil = some (time + p.ttl)

namespace Remembers

variable {p : Profile} {c c' : Cache} {history : List (ℕ × Event)} {event : Event}
  {new : List Effect}

/-- There is nothing to remember at first. -/
theorem ofProfile (p : Profile) : Remembers p (.ofProfile p) [] where
  accessKeyName := rfl
  secretKeyName := rfl
  ttl := rfl
  bounded _ h := by cases h
  empty _ := ⟨rfl, rfl⟩
  last _ _ h := by cases h

/-- What is taken over now is remembered from now on, and the window ends a span from now. -/
theorem taken (h : Remembers p c history) {call : Call} {secret : Secret} {access hidden : String}
    (haccess : secret.get? c.tracked.accessKey.name = some (.text access))
    (hhidden : secret.get? c.tracked.secretKey.name = some (.text hidden))
    (hterms : c'.terms = c.terms) (hnow : c.now ≤ c'.now)
    (htracked : c'.tracked =
      ⟨⟨c.tracked.accessKey.name, access⟩, ⟨c.tracked.secretKey.name, hidden⟩⟩)
    (hwindow : c'.window = c.window.extend c.terms.ttl c.now) :
    Remembers p c' (history ++ [(c.now, .answer call (.secret secret))]) := by
  have hvalid : c'.window.validUntil = some (c.now + p.ttl) := by
    rw [hwindow, Window.validUntil_extend, h.ttl]
    have hle : c.window.validUntil.getD 0 ≤ c.now + p.ttl := by
      cases hlast : c.window.validUntil with
      | none => exact Nat.zero_le _
      | some last => exact h.bounded last hlast
    rw [Nat.max_eq_right hle]
  refine ⟨?_, ?_, hterms ▸ h.ttl, ?_, fun hnil => by simp at hnil, ?_⟩
  · rw [htracked]
    exact h.accessKeyName
  · rw [htracked]
    exact h.secretKeyName
  · intro last hlast
    have := Option.some.inj (hvalid.symm.trans hlast)
    omega
  · intro time event hlast
    obtain ⟨rfl, rfl⟩ : c.now = time ∧ .answer call (.secret secret) = event := by
      simpa using hlast
    refine ⟨call, secret, access, hidden, rfl, h.accessKeyName ▸ haccess, h.secretKeyName ▸ hhidden,
      ?_, hvalid⟩
    simp [snapshot, htracked, TrackedPair.pair]

/-- Every move adds to the history what it takes over, and changes nothing otherwise. -/
theorem move (h : Remembers p c history) (hmove : Move c event c' new) :
    Remembers p c'
      (history ++ if new.any Effect.isSuccess then [(c.now, event)] else []) := by
  obtain ⟨hterms, hnow⟩ := hmove.terms_eq
  rcases hmove.kept_or_taken with ⟨hfailed, htracked, hwindow⟩ |
    ⟨hsuccess, s, -, secret, access, hidden, rfl, haccess, hhidden, htracked, hwindow⟩
  · have hsnapshot : c'.snapshot = c.snapshot := by rw [snapshot, htracked, snapshot]
    simp only [hfailed, Bool.false_eq_true, if_false, List.append_nil]
    refine ⟨htracked ▸ h.accessKeyName, htracked ▸ h.secretKeyName, hterms ▸ h.ttl, ?_,
      hsnapshot ▸ hwindow ▸ h.empty, hsnapshot ▸ hwindow ▸ h.last⟩
    intro last hlast
    have := h.bounded last (hwindow ▸ hlast)
    omega
  · simp only [hsuccess, if_true]
    exact h.taken haccess hhidden hterms hnow htracked hwindow

end Remembers

/-- Every run is remembered by its successes. -/
theorem remembers_run (p : Profile) (events : List Event) :
    Remembers p ((ofProfile p).run events).1 ((ofProfile p).successes events) := by
  have h := along_induction success (P := Remembers p)
    (fun c history event h => h.move (step_move c event)) _ [] (Remembers.ofProfile p) events
  simpa [successes] using h

/-- A refresh that fails leaves the pair and the window alone. -/
theorem Move.kept_of_failed {c c' : Cache} {event : Event} {new : List Effect}
    (hmove : Move c event c' new) {cycle followers : ℕ} {failure : Failure}
    (hmem : .finished cycle (.failure failure) followers ∈ new) :
    c'.tracked = c.tracked ∧ c'.window = c.window := by
  obtain ⟨seat, -, -, tracked, window, rest, hending, rfl, -⟩ := hmove.ending_of_finished hmem
  generalize houtcome : Outcome.failure failure = outcome at hending
  cases hending with
  | taken => cases houtcome
  | refused => exact ⟨rfl, rfl⟩
  | failed => exact ⟨rfl, rfl⟩
  | cancelled => exact ⟨rfl, rfl⟩

/-- A secret with texts under both names that answers the leader's read is a success. -/
theorem Coherent.success_of_texts {c : Cache} (h : Coherent c) {s : Seat} (hs : s ∈ c.leaders)
    {secret : Secret} {access hidden : String}
    (haccess : secret.get? c.tracked.accessKey.name = some (.text access))
    (hhidden : secret.get? c.tracked.secretKey.name = some (.text hidden)) :
    c.success (.answer s.call (.secret secret)) = [(c.now, .answer s.call (.secret secret))] := by
  obtain ⟨hseat, hleads⟩ := mem_leaders.mp hs
  have hfound := hleads ▸ h.seatAs?_eq hseat
  have hmerge := TrackedPair.merge_eq_ok_iff.mpr ⟨access, hidden, haccess, hhidden, rfl⟩
  simp [success, Cache.step, hfound, commit, absorb, Reply.secret?, hmerge, Effect.isSuccess]

/-- Before the first success, and after the end of the window, a cache is expired. -/
theorem Remembers.isExpired_iff {p : Profile} {c : Cache} {history : List (ℕ × Event)}
    (h : Remembers p c history) :
    c.isExpired = true ↔ history = [] ∨ ∃ last, c.window.validUntil = some last ∧ last < c.now := by
  cases hlast : history.getLast? with
  | none =>
    obtain rfl := List.getLast?_eq_none_iff.mp hlast
    simp [isExpired, Window.isExpired, (h.empty rfl).2]
  | some success =>
    obtain ⟨time, event⟩ := success
    obtain ⟨-, -, -, -, -, -, -, -, hvalid⟩ := h.last time event hlast
    have hsome : history ≠ [] := by
      rintro rfl
      cases hlast
    simp [isExpired, Window.isExpired, hvalid, hsome]

/-- What a cache of a profile holds after its successes so far, and what may change it next. -/
structure LastSuccess (p : Profile) (c : Cache) (history : List (ℕ × Event)) : Prop
    extends Remembers p c history where
  /-- The end of the window still belongs to it. -/
  isExpired_iff : c.isExpired = true ↔
    history = [] ∨ ∃ last, c.window.validUntil = some last ∧ last < c.now
  /-- A success is an answer to the leader's read, with texts under both names. -/
  success_iff : ∀ event, c.success event = [(c.now, event)] ↔
    ∃ s ∈ c.leaders, ∃ secret access hidden, event = .answer s.call (.secret secret) ∧
      secret.get? p.accessKeyName = some (.text access) ∧
      secret.get? p.secretKeyName = some (.text hidden)
  /-- Nothing but a success changes the pair or the window; a refresh that fails does not. -/
  kept : ∀ event, c.success event = [] →
    (c.step event).1.tracked = c.tracked ∧ (c.step event).1.window = c.window
  kept_of_failed : ∀ event cycle failure followers,
    .finished cycle (.failure failure) followers ∈ (c.step event).2 →
      (c.step event).1.tracked = c.tracked ∧ (c.step event).1.window = c.window
  /-- The window is only ever extended. -/
  extended : ∀ event last, c.window.validUntil = some last →
    ∃ later, (c.step event).1.window.validUntil = some later ∧ last ≤ later

/-- The cache of a profile holds what succeeded last, after every run. -/
theorem lastSuccess_run (p : Profile) (events : List Event) :
    LastSuccess p ((ofProfile p).run events).1 ((ofProfile p).successes events) := by
  have hremembers := remembers_run p events
  have hcoherent : Coherent ((ofProfile p).run events).1 := (Coherent.fresh _ _ _).run events
  generalize ((ofProfile p).run events).1 = c at hremembers hcoherent ⊢
  generalize (ofProfile p).successes events = history at hremembers ⊢
  refine ⟨hremembers, hremembers.isExpired_iff, fun event => ⟨?_, ?_⟩, ?_,
    fun event _ _ _ hmem => (step_move c event).kept_of_failed hmem, ?_⟩
  · intro hsuccess
    rcases (step_move c event).kept_or_taken with ⟨hfailed, -⟩ |
      ⟨-, s, hs, secret, access, hidden, hevent, haccess, hhidden, -⟩
    · simp [success, hfailed] at hsuccess
    · exact ⟨s, hs, secret, access, hidden, hevent, hremembers.accessKeyName ▸ haccess,
        hremembers.secretKeyName ▸ hhidden⟩
  · rintro ⟨s, hs, secret, access, hidden, rfl, haccess, hhidden⟩
    rw [← hremembers.accessKeyName] at haccess
    rw [← hremembers.secretKeyName] at hhidden
    exact hcoherent.success_of_texts hs haccess hhidden
  · intro event hnone
    rcases (step_move c event).kept_or_taken with ⟨-, hkept⟩ | ⟨hsuccess, -⟩
    · exact hkept
    · simp [success, hsuccess] at hnone
  · intro event last hlast
    rcases (step_move c event).kept_or_taken with ⟨-, -, hwindow⟩ |
      ⟨-, -, -, -, -, -, -, -, -, -, hwindow⟩
    · exact ⟨last, by rw [hwindow, hlast], Nat.le_refl _⟩
    · refine ⟨max last (c.now + c.terms.ttl), ?_, Nat.le_max_left _ _⟩
      rw [hwindow, Window.validUntil_extend, hlast, Option.getD_some]

end Cache

end FreshKeys.Refresh
