import FreshKeys.Proofs.Profile.Acceptance
import FreshKeys.Refresh.Window
import Mathlib.Order.Bounds.Basic

/-!
# A window ends at the greatest end it was given

A window is extended at instants in any order, on a clock with a last instant. An end behind that
cannot be told, and extends nothing. Of the ends that can be told the window keeps the greatest, so
what is valid at an instant stays so whatever comes later.
-/

namespace FreshKeys.Refresh.Window

/-- Extends a window at one instant after the other; says of each whether its end can be told. -/
def extendEach (latest ttl : ℕ) (w : Window) : List ℕ → Window × List Bool
  | [] => (w, [])
  | now :: rest =>
    let (next, told) := w.extendWithin latest ttl now
    let (last, more) := next.extendEach latest ttl rest
    (last, told :: more)

/-- The ends that were told, of extensions at instants. -/
def ends (ttl : ℕ) (instants : List ℕ) (told : List Bool) : Set ℕ :=
  {last | ∃ now, (now, true) ∈ instants.zip told ∧ now + ttl = last}

variable {latest ttl : ℕ} {w : Window}

/-- An extension says whether its end is on the clock. -/
theorem extendWithin_told (now : ℕ) :
    (w.extendWithin latest ttl now).2 = decide (now + ttl ≤ latest) := by
  unfold extendWithin
  split <;> simp [*]

/-- On the clock, an end is given as on a clock without a last instant. -/
theorem extendWithin_of_le {now : ℕ} (h : now + ttl ≤ latest) :
    w.extendWithin latest ttl now = (w.extend ttl now, true) :=
  if_pos h

/-- An end behind the last instant leaves the window alone. -/
theorem extendWithin_of_lt {now : ℕ} (h : latest < now + ttl) :
    w.extendWithin latest ttl now = (w, false) :=
  if_neg (Nat.not_le_of_gt h)

/-- A window is open up to its end. -/
theorem isExpired_eq_false_iff {t : ℕ} :
    w.isExpired t = false ↔ ∃ last, w.validUntil = some last ∧ t ≤ last := by
  obtain ⟨last⟩ := w
  cases last <;> simp [isExpired]

/-- What is over stays over as time passes. -/
theorem isExpired_mono {t later : ℕ} (hle : t ≤ later) (h : w.isExpired t = true) :
    w.isExpired later = true := by
  rw [← Bool.not_eq_false, isExpired_eq_false_iff] at h ⊢
  rintro ⟨last, hlast, hopen⟩
  exact h ⟨last, hlast, Nat.le_trans hle hopen⟩

/-- A window that is extended is open at the instants it was open at. -/
theorem isExpired_extend {t : ℕ} (now : ℕ) (h : w.isExpired t = false) :
    (w.extend ttl now).isExpired t = false := by
  obtain ⟨last, hlast, hopen⟩ := isExpired_eq_false_iff.mp h
  refine isExpired_eq_false_iff.mpr ⟨_, validUntil_extend w ttl now, ?_⟩
  rw [hlast, Option.getD_some]
  exact Nat.le_trans hopen (Nat.le_max_left _ _)

/-- It is open at the instant at which it is extended. -/
theorem isExpired_extend_self (w : Window) (ttl now : ℕ) :
    (w.extend ttl now).isExpired now = false := by
  refine isExpired_eq_false_iff.mpr ⟨_, validUntil_extend w ttl now, ?_⟩
  exact Nat.le_trans (Nat.le_add_right now ttl) (Nat.le_max_right _ _)

/-- The same goes for an extension on a clock with a last instant. -/
theorem isExpired_extendWithin {t : ℕ} (now : ℕ) (h : w.isExpired t = false) :
    (w.extendWithin latest ttl now).1.isExpired t = false := by
  unfold extendWithin
  split
  · exact isExpired_extend now h
  · exact h

/-- A window is open at the instants it was open at, whatever it is extended by. -/
theorem isExpired_extendEach {t : ℕ} (h : w.isExpired t = false) (instants : List ℕ) :
    (w.extendEach latest ttl instants).1.isExpired t = false := by
  induction instants generalizing w with
  | nil => exact h
  | cons now rest ih => exact ih (isExpired_extendWithin now h)

/-- Each extension says whether its end is on the clock. -/
theorem extendEach_told (w : Window) (instants : List ℕ) :
    (w.extendEach latest ttl instants).2 =
      instants.map fun now => decide (now + ttl ≤ latest) := by
  induction instants generalizing w with
  | nil => rfl
  | cons now rest ih => simp only [extendEach, ih, extendWithin_told, List.map_cons]

/-- The ends that were told are those on the clock. -/
theorem mem_ends_iff {instants : List ℕ} {last : ℕ} :
    last ∈ ends ttl instants (w.extendEach latest ttl instants).2 ↔
      ∃ now ∈ instants, now + ttl ≤ latest ∧ now + ttl = last := by
  have hzip : instants.zip (w.extendEach latest ttl instants).2 =
      instants.map fun now => (now, decide (now + ttl ≤ latest)) := by
    rw [extendEach_told, List.zip_eq_zipWith, List.zipWith_map_right, List.zipWith_self]
  simp only [ends, hzip, Set.mem_ofPred_eq, List.mem_map, Prod.mk.injEq, decide_eq_true_eq]
  constructor
  · rintro ⟨_, ⟨now, hmem, rfl, htold⟩, hlast⟩
    exact ⟨now, hmem, htold, hlast⟩
  · rintro ⟨now, hmem, htold, hlast⟩
    exact ⟨now, ⟨now, hmem, rfl, htold⟩, hlast⟩

/-- A window ends at the greatest of the end it had and the ends on the clock. -/
theorem validUntil_extendEach (w : Window) (instants : List ℕ) :
    (w.extendEach latest ttl instants).1.validUntil =
      (w.validUntil.toList ++
        (instants.filter fun now => now + ttl ≤ latest).map fun now => now + ttl).max? := by
  induction instants generalizing w with
  | nil => cases hlast : w.validUntil <;> simp [extendEach, hlast]
  | cons now rest ih =>
    simp only [extendEach, ih]
    by_cases htold : now + ttl ≤ latest
    · rw [extendWithin_of_le htold, validUntil_extend, List.filter_cons_of_pos (by simpa using htold),
        List.map_cons]
      generalize (rest.filter _).map _ = more
      cases w.validUntil <;> cases hmore : more.max? <;> simp [List.max?_cons, hmore, Nat.max_assoc]
    · rw [extendWithin_of_lt (Nat.lt_of_not_le htold),
        List.filter_cons_of_neg (by simpa using htold)]

/-- Opened by its extensions, a window ends at the greatest end that was told. -/
theorem validUntil_eq_some_iff_isGreatest {instants : List ℕ} {last : ℕ} :
    (unopened.extendEach latest ttl instants).1.validUntil = some last ↔
      IsGreatest (ends ttl instants (unopened.extendEach latest ttl instants).2) last := by
  have hends : ∀ last, last ∈ ends ttl instants (unopened.extendEach latest ttl instants).2 ↔
      last ∈ (instants.filter fun now => now + ttl ≤ latest).map fun now => now + ttl := by
    intro last
    simp [mem_ends_iff, and_assoc]
  have hnone : unopened.validUntil.toList = [] := rfl
  rw [validUntil_extendEach, hnone, List.nil_append, List.max?_eq_some_iff]
  simp only [IsGreatest, mem_upperBounds, hends]

/-- While every end is on the clock, a window is extended as if there were no last instant. -/
theorem extendEach_of_le {instants : List ℕ} (h : ∀ now ∈ instants, now + ttl ≤ latest) :
    (w.extendEach latest ttl instants).1 =
      instants.foldl (fun w now => w.extend ttl now) w := by
  induction instants generalizing w with
  | nil => rfl
  | cons now rest ih =>
    obtain ⟨hnow, hrest⟩ := List.forall_mem_cons.mp h
    simp only [extendEach, extendWithin_of_le hnow, ih hrest, List.foldl_cons]

/-- A window that was extended at instants, with what was said of each, and what comes of it next. -/
structure RunningMaximum (latest ttl : ℕ) (instants : List ℕ) (w : Window) (told : List Bool) :
    Prop where
  /-- Each extension says whether its end is on the clock, and one whose end is not leaves the
  window alone. -/
  told_eq : told = instants.map fun now => decide (now + ttl ≤ latest)
  untouched : ∀ now, (w.extendWithin latest ttl now).2 = false →
    (w.extendWithin latest ttl now).1 = w
  /-- The window ends at the greatest end that was told, and has none if no end was. -/
  validUntil_eq_none_iff : w.validUntil = none ↔ ∀ answer ∈ told, answer = false
  validUntil_eq_some_iff : ∀ last, w.validUntil = some last ↔ IsGreatest (ends ttl instants told) last
  /-- Its end is never moved back, and at its end it is still open. -/
  extended : ∀ more last, w.validUntil = some last →
    ∃ later, (w.extendEach latest ttl more).1.validUntil = some later ∧ last ≤ later
  isExpired_extended : ∀ more t, w.isExpired t = false →
    (w.extendEach latest ttl more).1.isExpired t = false
  isExpired_later : ∀ t later, t ≤ later → w.isExpired t = true → w.isExpired later = true
  isExpired_end : ∀ last, w.validUntil = some last →
    w.isExpired last = false ∧ ∀ t, last < t → w.isExpired t = true
  /-- The span of a profile, on a clock with so many instants in a millisecond, has an end on the
  clock unless the last instant is less than the longest span away. The window is open then, and is
  what it would be on a clock without a last instant. -/
  accepted : ∀ files settings p, Profile.ofSettings files settings = .ok p →
    ∀ fineness now, ttl = p.ttl * fineness → now + Profile.maxTtl * fineness ≤ latest →
      (w.extendWithin latest ttl now).2 = true ∧
        (w.extendWithin latest ttl now).1.isExpired now = false ∧
          (w.extendWithin latest ttl now).1 = w.extend ttl now
  /-- As long as every end is on the clock, a window needs no last instant. -/
  unbounded : (∀ now ∈ instants, now + ttl ≤ latest) →
    w = instants.foldl (fun w now => w.extend ttl now) .unopened

/-- Extended at instants in any order, a window is a running maximum of the ends on the clock. -/
theorem runningMaximum (latest ttl : ℕ) (instants : List ℕ) :
    RunningMaximum latest ttl instants (unopened.extendEach latest ttl instants).1
      (unopened.extendEach latest ttl instants).2 := by
  have hopen : ∀ last, (unopened.extendEach latest ttl instants).1.validUntil = some last →
      (unopened.extendEach latest ttl instants).1.isExpired last = false := fun last hlast =>
    isExpired_eq_false_iff.mpr ⟨last, hlast, Nat.le_refl last⟩
  constructor
  case told_eq => exact extendEach_told _ _
  case untouched =>
    intro now hfalse
    rw [extendWithin_told, decide_eq_false_iff_not] at hfalse
    rw [extendWithin_of_lt (Nat.lt_of_not_le hfalse)]
  case validUntil_eq_none_iff =>
    rw [validUntil_extendEach, extendEach_told]
    simp [unopened]
  case validUntil_eq_some_iff => exact fun last => validUntil_eq_some_iff_isGreatest
  case extended =>
    intro more last hlast
    exact isExpired_eq_false_iff.mp (isExpired_extendEach (hopen last hlast) more)
  case isExpired_extended => exact fun more t hvalid => isExpired_extendEach hvalid more
  case isExpired_later => exact fun t later hle hover => isExpired_mono hle hover
  case isExpired_end =>
    intro last hlast
    refine ⟨hopen last hlast, fun t hlate => ?_⟩
    simp [isExpired, hlast, hlate]
  case accepted =>
    intro files settings p haccepted fineness now httl hlatest
    have hspan : p.ttl * fineness ≤ Profile.maxTtl * fineness :=
      Nat.mul_le_mul_right _ (Profile.ofSettings_eq_ok_iff.mp haccepted).1.durations.ttl_le
    have hnow : now + ttl ≤ latest := by omega
    rw [extendWithin_of_le hnow]
    exact ⟨rfl, isExpired_extend_self _ ttl now, rfl⟩
  case unbounded => exact extendEach_of_le

end FreshKeys.Refresh.Window
