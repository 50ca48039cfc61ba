import FreshKeys.Secret
import Mathlib.Data.Nat.Notation

/-!
# When a secret is taken over

A secret is taken over exactly when it holds texts under both tracked names; the two values are
then those texts. Otherwise nothing is taken over, and the failure names one of the tracked fields.
-/

namespace FreshKeys

/-- A secret has a text under a name exactly when its value there is one. -/
theorem Secret.text_eq_ok_iff {secret : Secret} {name value : String} :
    secret.text name = .ok value ↔ secret.get? name = some (.text value) := by
  unfold Secret.text
  split
  · rename_i hget
    simp [hget]
  · rename_i hother hget
    simpa [hget] using hother value
  · rename_i hget
    simp [hget]

/-- What is wrong with a secret that has no text under a name. -/
inductive Secret.Lacks (secret : Secret) (name : String) : ShapeIssue → Prop where
  | missing (absent : secret.get? name = none) : Secret.Lacks secret name .missing
  | notText {value : Json} (present : secret.get? name = some value)
      (other : ∀ text, value ≠ .text text) : Secret.Lacks secret name .notText

/-- A secret is refused for a name exactly when it lacks a text there. -/
theorem Secret.text_eq_error_iff {secret : Secret} {name key : String} {issue : ShapeIssue} :
    secret.text name = .error (.shapeMismatch key issue) ↔
      key = name ∧ secret.Lacks name issue := by
  constructor
  · intro h
    unfold Secret.text at h
    split at h
    · cases h
    · rename_i value hother hget
      cases h
      exact ⟨rfl, .notText hget hother⟩
    · rename_i hget
      cases h
      exact ⟨rfl, .missing hget⟩
  · rintro ⟨rfl, hlacks⟩
    cases hlacks with
    | missing absent => simp [Secret.text, absent]
    | notText present other => simp [Secret.text, present]

/-- A secret without a text under a name fails for the field of that name. -/
theorem Secret.eq_shapeMismatch_of_text {secret : Secret} {name : String} {failure : Failure}
    (h : secret.text name = .error failure) : ∃ issue, failure = .shapeMismatch name issue := by
  unfold Secret.text at h
  split at h
  · cases h
  · exact ⟨.notText, (Except.error.inj h).symm⟩
  · exact ⟨.missing, (Except.error.inj h).symm⟩

namespace TrackedPair

/-- A secret is taken over exactly when it has texts under both names. -/
theorem merge_eq_ok_iff {tracked merged : TrackedPair} {secret : Secret} :
    tracked.merge secret = .ok merged ↔
      ∃ access hidden, secret.get? tracked.accessKey.name = some (.text access) ∧
        secret.get? tracked.secretKey.name = some (.text hidden) ∧
          merged = ⟨⟨tracked.accessKey.name, access⟩, ⟨tracked.secretKey.name, hidden⟩⟩ := by
  constructor
  · intro h
    cases haccess : secret.text tracked.accessKey.name with
    | error failure => simp [merge, haccess, bind, Except.bind] at h
    | ok access =>
      cases hhidden : secret.text tracked.secretKey.name with
      | error failure => simp [merge, haccess, hhidden, bind, Except.bind] at h
      | ok hidden =>
        simp only [merge, haccess, hhidden, bind, Except.bind, Except.ok.injEq] at h
        exact ⟨access, hidden, Secret.text_eq_ok_iff.mp haccess, Secret.text_eq_ok_iff.mp hhidden,
          h.symm⟩
  · rintro ⟨access, hidden, haccess, hhidden, rfl⟩
    simp [merge, Secret.text_eq_ok_iff.mpr haccess, Secret.text_eq_ok_iff.mpr hhidden, bind,
      Except.bind]

/-- A secret is refused for what is wrong under the first name, or else under the second. -/
theorem merge_eq_error {tracked : TrackedPair} {secret : Secret} {failure : Failure} :
    tracked.merge secret = .error failure ↔
      secret.text tracked.accessKey.name = .error failure ∨
        (∃ access, secret.text tracked.accessKey.name = .ok access) ∧
          secret.text tracked.secretKey.name = .error failure := by
  cases haccess : secret.text tracked.accessKey.name with
  | error first => simp [merge, haccess, bind, Except.bind]
  | ok access =>
    cases hhidden : secret.text tracked.secretKey.name with
    | error second => simp [merge, haccess, hhidden, bind, Except.bind]
    | ok hidden => simp [merge, haccess, hhidden, bind, Except.bind]

/-- A secret is refused for the access key if it lacks a text there, and for the secret key if
that is all that it lacks. -/
theorem merge_eq_shapeMismatch_iff {tracked : TrackedPair} {secret : Secret} {key : String}
    {issue : ShapeIssue} :
    tracked.merge secret = .error (.shapeMismatch key issue) ↔
      key = tracked.accessKey.name ∧ secret.Lacks tracked.accessKey.name issue ∨
        (∃ access, secret.get? tracked.accessKey.name = some (.text access)) ∧
          key = tracked.secretKey.name ∧ secret.Lacks tracked.secretKey.name issue := by
  simp only [merge_eq_error, Secret.text_eq_error_iff, Secret.text_eq_ok_iff]

/-- A secret that is refused lacks a text under a tracked name. -/
theorem eq_shapeMismatch_of_merge {tracked : TrackedPair} {secret : Secret} {failure : Failure}
    (h : tracked.merge secret = .error failure) :
    ∃ key issue, failure = .shapeMismatch key issue := by
  cases merge_eq_error.mp h with
  | inl haccess => exact ⟨_, Secret.eq_shapeMismatch_of_text haccess⟩
  | inr hhidden => exact ⟨_, Secret.eq_shapeMismatch_of_text hhidden.2⟩

end TrackedPair

end FreshKeys
