import FreshKeys.Proofs.Merge

/-!
# Tracked fields after many secrets

Secrets are merged one after the other into two tracked fields, whose names may be any and may be
the same. Of all secrets so far the fields hold the texts of the last one that has both. A secret
that is refused leaves them as they were, and what is said of it is what is wrong with it alone.
-/

namespace FreshKeys

/-- A secret has texts under two names. -/
structure Secret.HasTexts (secret : Secret) (accessKeyName secretKeyName access hidden : String) :
    Prop where
  access : secret.get? accessKeyName = some (.text access)
  hidden : secret.get? secretKeyName = some (.text hidden)

/-- A secret has some texts under two names. -/
def Secret.IsComplete (secret : Secret) (accessKeyName secretKeyName : String) : Prop :=
  ∃ access hidden, secret.HasTexts accessKeyName secretKeyName access hidden

namespace TrackedPair

variable {tracked : TrackedPair} {secret : Secret}

/-- The fields after secrets were merged one after the other. -/
def after (tracked : TrackedPair) (secrets : List Secret) : TrackedPair :=
  secrets.foldl (fun reached secret => (reached.absorb secret).1) tracked

/-- Without secrets the fields are as they were. -/
@[simp] theorem after_nil (tracked : TrackedPair) : tracked.after [] = tracked := rfl

/-- The first secret is merged before the rest. -/
@[simp] theorem after_cons (tracked : TrackedPair) (secret : Secret) (rest : List Secret) :
    tracked.after (secret :: rest) = (tracked.absorb secret).1.after rest := rfl

/-- Merging secrets goes on from what those before have left. -/
theorem after_append (tracked : TrackedPair) (before later : List Secret) :
    tracked.after (before ++ later) = (tracked.after before).after later :=
  List.foldl_append

/-- Both texts of a secret that has them are taken over. -/
theorem absorb_of_hasTexts {access hidden : String}
    (h : secret.HasTexts tracked.accessKey.name tracked.secretKey.name access hidden) :
    tracked.absorb secret =
      (⟨⟨tracked.accessKey.name, access⟩, ⟨tracked.secretKey.name, hidden⟩⟩, none) := by
  have hmerge := merge_eq_ok_iff.mpr ⟨access, hidden, h.access, h.hidden, rfl⟩
  simp only [absorb, hmerge]

/-- What is said of a secret is why it is refused. -/
theorem absorb_eq_some_iff {failure : Failure} :
    (tracked.absorb secret).2 = some failure ↔ tracked.merge secret = .error failure := by
  cases hmerge : tracked.merge secret <;> simp [absorb, hmerge]

/-- Nothing is said exactly of a secret that has both texts. -/
theorem absorb_eq_none_iff : (tracked.absorb secret).2 = none ↔
    secret.IsComplete tracked.accessKey.name tracked.secretKey.name := by
  constructor
  · intro hnone
    cases hmerge : tracked.merge secret with
    | error failure => simp [absorb, hmerge] at hnone
    | ok merged =>
      obtain ⟨access, hidden, haccess, hhidden, -⟩ := merge_eq_ok_iff.mp hmerge
      exact ⟨access, hidden, haccess, hhidden⟩
  · rintro ⟨access, hidden, htexts⟩
    rw [absorb_of_hasTexts htexts]

/-- A secret of which something is said leaves the fields as they are. -/
theorem absorb_of_refused (h : (tracked.absorb secret).2 ≠ none) :
    (tracked.absorb secret).1 = tracked := by
  cases hmerge : tracked.merge secret with
  | ok merged => simp [absorb, hmerge] at h
  | error failure => simp only [absorb, hmerge]

/-- Merging changes no name. -/
theorem names_absorb (tracked : TrackedPair) (secret : Secret) :
    (tracked.absorb secret).1.accessKey.name = tracked.accessKey.name ∧
      (tracked.absorb secret).1.secretKey.name = tracked.secretKey.name := by
  by_cases hcomplete : secret.IsComplete tracked.accessKey.name tracked.secretKey.name
  · obtain ⟨access, hidden, htexts⟩ := hcomplete
    simp [absorb_of_hasTexts htexts]
  · simp [absorb_of_refused (mt absorb_eq_none_iff.mp hcomplete)]

/-- The names of the fields stay as they are, whatever is merged. -/
theorem names_after (tracked : TrackedPair) (secrets : List Secret) :
    (tracked.after secrets).accessKey.name = tracked.accessKey.name ∧
      (tracked.after secrets).secretKey.name = tracked.secretKey.name := by
  induction secrets generalizing tracked with
  | nil => exact ⟨rfl, rfl⟩
  | cons secret rest ih =>
    obtain ⟨haccess, hhidden⟩ := ih (tracked.absorb secret).1
    exact ⟨haccess.trans (names_absorb tracked secret).1,
      hhidden.trans (names_absorb tracked secret).2⟩

/-- Secrets of which none has both texts leave the fields as they are. -/
theorem after_of_not_isComplete {secrets : List Secret}
    (h : ∀ secret ∈ secrets, ¬ secret.IsComplete tracked.accessKey.name tracked.secretKey.name) :
    tracked.after secrets = tracked := by
  induction secrets with
  | nil => rfl
  | cons secret rest ih =>
    obtain ⟨hsecret, hrest⟩ := List.forall_mem_cons.mp h
    rw [after_cons, absorb_of_refused (mt absorb_eq_none_iff.mp hsecret), ih hrest]

/-- There is one result for each secret. -/
theorem length_absorbEach (tracked : TrackedPair) (secrets : List Secret) :
    (tracked.absorbEach secrets).length = secrets.length := by
  induction secrets generalizing tracked with
  | nil => rfl
  | cons secret rest ih => simp only [absorbEach, List.length_cons, ih]

/-- Each secret is merged into what the ones before it have left. -/
theorem getElem?_absorbEach (tracked : TrackedPair) (before : List Secret) (secret : Secret)
    (later : List Secret) :
    (tracked.absorbEach (before ++ secret :: later))[before.length]? =
      some ((tracked.after before).absorb secret) := by
  induction before generalizing tracked with
  | nil => rfl
  | cons first rest ih =>
    simp only [List.cons_append, absorbEach, List.length_cons, List.getElem?_cons_succ, ih,
      after_cons]

/-- What two named fields hold after secrets. -/
structure HoldsLast (accessKeyName secretKeyName : String) (secrets : List Secret)
    (tracked : TrackedPair) : Prop where
  names : tracked.accessKey.name = accessKeyName ∧ tracked.secretKey.name = secretKeyName
  /-- They are blank as long as no secret has had both texts. -/
  blank : (∀ secret ∈ secrets, ¬ secret.IsComplete accessKeyName secretKeyName) →
    tracked.accessKey.value = "" ∧ tracked.secretKey.value = ""
  /-- Each holds the text under its name in the last secret that has both. -/
  last : ∀ before secret later access hidden, secrets = before ++ secret :: later →
    secret.HasTexts accessKeyName secretKeyName access hidden →
      (∀ other ∈ later, ¬ other.IsComplete accessKeyName secretKeyName) →
        tracked.accessKey.value = access ∧ tracked.secretKey.value = hidden

/-- What comes of merging a secret into two named fields. -/
structure MergesOrKeeps (accessKeyName secretKeyName : String) (secret : Secret)
    (tracked : TrackedPair) (result : TrackedPair × Option Failure) : Prop where
  merged_iff : result.2 = none ↔ secret.IsComplete accessKeyName secretKeyName
  /-- A secret that is refused leaves both values as they were. -/
  kept : result.2 ≠ none → result.1 = tracked
  /-- It is refused for the access key if it lacks a text there, and otherwise for the secret key.
  A text is missing if there is nothing under the name, and else what is there is no text. -/
  refused_iff : ∀ key issue, result.2 = some (.shapeMismatch key issue) ↔
    key = accessKeyName ∧ secret.Lacks accessKeyName issue ∨
      (∃ access, secret.get? accessKeyName = some (.text access)) ∧
        key = secretKeyName ∧ secret.Lacks secretKeyName issue
  blamed : ∀ failure, result.2 = some failure → failure.isShapeMismatch = true

/-- What comes of merging secrets one after the other into two named fields, which are blank at
first. -/
structure MergesEach (accessKeyName secretKeyName : String) (secrets : List Secret)
    (results : List (TrackedPair × Option Failure)) : Prop where
  length_eq : results.length = secrets.length
  each : ∀ before secret later, secrets = before ++ secret :: later →
    ∃ result, results[before.length]? = some result ∧
      result.1 = (named accessKeyName secretKeyName).after (before ++ [secret]) ∧
      MergesOrKeeps accessKeyName secretKeyName secret
        ((named accessKeyName secretKeyName).after before) result
  holds : ∀ before later, secrets = before ++ later →
    HoldsLast accessKeyName secretKeyName before
      ((named accessKeyName secretKeyName).after before)

/-- The fields hold both texts of the last secret that has both. -/
theorem holdsLast_after (accessKeyName secretKeyName : String) (secrets : List Secret) :
    HoldsLast accessKeyName secretKeyName secrets
      ((named accessKeyName secretKeyName).after secrets) := by
  have hnames := names_after (named accessKeyName secretKeyName)
  constructor
  case names => exact hnames secrets
  case blank =>
    intro hnone
    have hkept : (named accessKeyName secretKeyName).after secrets =
        named accessKeyName secretKeyName := after_of_not_isComplete hnone
    rw [hkept]
    exact ⟨rfl, rfl⟩
  case last =>
    rintro before secret later access hidden rfl htexts hlater
    obtain ⟨haccess, hhidden⟩ : _ = accessKeyName ∧ _ = secretKeyName := hnames before
    rw [after_append, after_cons]
    generalize (named accessKeyName secretKeyName).after before = reached at haccess hhidden ⊢
    subst haccess hhidden
    let merged : TrackedPair := ⟨⟨reached.accessKey.name, access⟩, ⟨reached.secretKey.name, hidden⟩⟩
    have hkept : merged.after later = merged := after_of_not_isComplete hlater
    rw [absorb_of_hasTexts htexts]
    exact hkept ▸ ⟨rfl, rfl⟩

/-- A secret is merged as a whole, or it leaves the fields alone and is told why. -/
theorem mergesOrKeeps_absorb {accessKeyName secretKeyName : String}
    (haccess : tracked.accessKey.name = accessKeyName)
    (hhidden : tracked.secretKey.name = secretKeyName) (secret : Secret) :
    MergesOrKeeps accessKeyName secretKeyName secret tracked (tracked.absorb secret) := by
  subst haccess hhidden
  constructor
  case merged_iff => exact absorb_eq_none_iff
  case kept => exact absorb_of_refused
  case refused_iff =>
    intro key issue
    rw [absorb_eq_some_iff, merge_eq_shapeMismatch_iff]
  case blamed =>
    intro failure hsaid
    obtain ⟨key, issue, rfl⟩ := eq_shapeMismatch_of_merge (absorb_eq_some_iff.mp hsaid)
    rfl

/-- Secrets are merged one after the other, each as a whole or not at all. -/
theorem mergesEach (accessKeyName secretKeyName : String) (secrets : List Secret) :
    MergesEach accessKeyName secretKeyName secrets
      ((named accessKeyName secretKeyName).absorbEach secrets) := by
  constructor
  case length_eq => exact length_absorbEach _ secrets
  case each =>
    rintro before secret later rfl
    obtain ⟨haccess, hhidden⟩ := names_after (named accessKeyName secretKeyName) before
    refine ⟨_, getElem?_absorbEach _ before secret later, ?_,
      mergesOrKeeps_absorb haccess hhidden secret⟩
    rw [after_append, after_cons, after_nil]
  case holds => exact fun before _ _ => holdsLast_after accessKeyName secretKeyName before

end TrackedPair

end FreshKeys
