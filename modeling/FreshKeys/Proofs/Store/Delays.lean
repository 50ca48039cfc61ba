import FreshKeys.Proofs.Store.Calls

/-!
# Vaults later on

A vault at rest does not know what time it is: if all of its instants are moved by one span, every
call comes to the same, and the vaults after it differ by that span again. How many refreshes there
have been makes no difference either.
-/

namespace FreshKeys

open Refresh (Cache Call Provider Window)
open Store (Answer)

/-- A window some time later, with the same time left. -/
def Refresh.Window.delayed (w : Window) (span : ℕ) : Window := ⟨w.validUntil.map (· + span)⟩

/-- Moved by a span together with the clock, a window is over exactly if it was. -/
theorem Refresh.Window.isExpired_delayed (w : Window) (span now : ℕ) :
    (w.delayed span).isExpired (now + span) = w.isExpired now := by
  obtain ⟨last⟩ := w
  cases last <;> simp [delayed, isExpired]

/-- Extended after both were moved, it ends where it would have, and that span later. -/
theorem Refresh.Window.extend_delayed (w : Window) (ttl span now : ℕ) :
    (w.delayed span).extend ttl (now + span) = (w.extend ttl now).delayed span := by
  obtain ⟨last⟩ := w
  cases last with
  | none => simp only [delayed, extend, Option.map]; congr 2; omega
  | some last => simp only [delayed, extend, Option.map]; congr 2; omega

/-- A cache at rest and one that stands as it does, some time later. -/
structure Refresh.Cache.Delayed (p : Profile) (span : ℕ) (c later : Cache) : Prop where
  atRest : c.AtRest p
  atRest_later : later.AtRest p
  tracked : later.tracked = c.tracked
  now : later.now = c.now + span
  window : later.window = c.window.delayed span

namespace Refresh.Cache.Delayed

variable {p : Profile} {span : ℕ} {c d : Cache}

/-- It stays so while time passes. -/
theorem advance (h : c.Delayed p span d) (more : ℕ) :
    { c with now := c.now + more }.Delayed p span { d with now := d.now + more } where
  atRest := h.atRest.later _
  atRest_later := h.atRest_later.later _
  tracked := h.tracked
  now := by simp only [h.now]; omega
  window := h.window

/-- It stays so when both take over what was fetched. -/
theorem absorb (h : c.Delayed p span d) (fetched : Except Failure Secret) :
    (c.absorb fetched).1.Delayed p span (d.absorb fetched).1 := by
  cases fetched with
  | error failure => exact h
  | ok secret =>
    have htracked := h.tracked
    have hterms := h.atRest_later.terms.trans h.atRest.terms.symm
    cases hmerge : c.tracked.merge secret with
    | error failure => simpa only [Cache.absorb, htracked, hmerge] using h
    | ok merged =>
      simp only [Cache.absorb, htracked, hmerge, hterms, h.now, h.window, Window.extend_delayed]
      exact ⟨⟨h.atRest.terms, h.atRest.cohort, h.atRest.seats⟩,
        ⟨h.atRest.terms, h.atRest_later.cohort, h.atRest_later.seats⟩, rfl, rfl, rfl⟩

/-- How many refreshes either of them has seen makes no difference. -/
theorem recount (h : c.Delayed p span d) (cycles cycles' : List Refresh.Cycle) :
    { c with cycles }.Delayed p span { d with cycles := cycles' } where
  atRest := h.atRest.recount cycles
  atRest_later := h.atRest_later.recount cycles'
  tracked := h.tracked
  now := h.now
  window := h.window

end Refresh.Cache.Delayed

namespace Vault

variable {p : Profile} {span : ℕ} {v w : Vault}

/-- A vault at rest and one that stands as it does, some time later. -/
structure Delayed (p : Profile) (span : ℕ) (v later : Vault) : Prop where
  client : later.client = v.client
  cache : v.provider.cache.Delayed p span later.provider.cache
  slots : later.provider.slots = v.provider.slots

/-- The handles have the same pairs to hand out. -/
theorem Delayed.stored?_eq (h : Delayed p span v w) (handle : ℕ) :
    w.provider.stored? handle = v.provider.stored? handle := by
  have hexpired : w.provider.isExpired = v.provider.isExpired := by
    simp only [Provider.isExpired, Cache.isExpired, h.cache.now, h.cache.window,
      Window.isExpired_delayed]
  rw [Provider.stored?, Provider.stored?, hexpired, h.slots]

/-- It stays so while time passes for both. -/
theorem Delayed.wait (h : Delayed p span v w) (more : ℕ) :
    Delayed p span (v.wait more) (w.wait more) :=
  ⟨h.client, h.cache.advance more, h.slots⟩

/-- A pair goes into the slot of the handle that was asked for it. -/
theorem keep_returned {call call' : Call} (hway : call'.way = call.way)
    (slots : List (Option KeyPair)) (outcome : Outcome) :
    Provider.keep slots (.returned call' outcome) =
      Provider.keep slots (.returned call outcome) := by
  cases outcome with
  | pair pair => simp only [Provider.keep, hway]
  | failure failure => rfl

/-- A call comes to the same later on, and whatever it is numbered. -/
theorem Delayed.call (h : Delayed p span v w) (call call' : Call) (hway : call'.way = call.way)
    (answer : Answer) :
    (w.call call' answer).2 = (v.call call answer).2 ∧
      Delayed p span (v.call call answer).1 (w.call call' answer).1 := by
  obtain ⟨client, ⟨c, slots⟩⟩ := v
  obtain ⟨client', ⟨d, slots'⟩⟩ := w
  obtain ⟨rfl, hcache, rfl⟩ : client' = client ∧ c.Delayed p span d ∧ slots' = slots :=
    ⟨h.client, h.cache, h.slots⟩
  by_cases hkept : ∃ handle pair, call.way.handle? = some handle ∧
      (⟨c, slots'⟩ : Provider).stored? handle = some pair
  · obtain ⟨handle, pair, hhandle, hstored⟩ := hkept
    have hstored' := (h.stored?_eq handle).trans hstored
    rw [call_kept hcache.atRest.seats client' hhandle hstored,
      call_kept hcache.atRest_later.seats client' (hway ▸ hhandle) hstored']
    exact ⟨rfl, h⟩
  · have unkept : ∀ handle, call.way.handle? = some handle →
        (⟨c, slots'⟩ : Provider).stored? handle = none := fun handle hhandle =>
      Option.eq_none_iff_forall_ne_some.mpr fun pair hstored =>
        hkept ⟨handle, pair, hhandle, hstored⟩
    have unkept' : ∀ handle, call'.way.handle? = some handle →
        (⟨d, slots'⟩ : Provider).stored? handle = none := fun handle hhandle =>
      (h.stored?_eq handle).trans (unkept handle (hway ▸ hhandle))
    obtain ⟨cycles, hcall⟩ := call_atRest hcache.atRest client' slots' call unkept answer
    obtain ⟨cycles', hcall'⟩ := call_atRest hcache.atRest_later client' slots' call' unkept' answer
    have houtcome : (taken p d (client'.read p.secretPath answer)).2 =
        (taken p c (client'.read p.secretPath answer)).2 := by
      rw [taken_snd, taken_snd, Cache.absorb_snd _ _ _ hcache.tracked]
    rw [hcall, hcall', houtcome]
    refine ⟨?_, rfl, ((hcache.advance _).absorb _).recount cycles cycles', ?_⟩
    · simp only [asked, opening, hway]
    · exact keep_returned hway slots' _

end Vault

end FreshKeys
