import FreshKeys.Proofs.Profile.Rebuilding
import FreshKeys.Proofs.Store.Addresses
import FreshKeys.Proofs.Store.Retrieval

/-!
# One secret, however its path is written

A secret is asked for under what is left of its path without the slashes around it, with the data
segment put after the mount unless it is there already. So slashes around a path make no difference,
nothing changes when a path is rewritten again, and the path with the segment is only another
spelling of the path without it. The path of settings loses the blanks around it first: there the
slashes make no difference exactly when no blank stands right within them.
-/

namespace FreshKeys

namespace Store

open Text (isBlank isSlash StartsWithout EndsWithout)

/-- Slashes, as many as given. -/
def slashes (n : ℕ) : String := String.ofList (List.replicate n '/')

/-- A path with slashes on either side. -/
def enclosed (before : ℕ) (path : String) (after : ℕ) : String :=
  slashes before ++ path ++ slashes after

/-- A path that is asked for as it is: of version 1, without a mount, or with the data segment. -/
def IsFinal (kvV2 : Bool) (path : List Char) : Prop :=
  kvV2 = false ∨ '/' ∉ path ∨ dataSegment <:+: path

/-- A path as a reader of version 2 thinks of it: a mount, and the rest without the data segment. -/
structure IsLogical (path mount rest : List Char) : Prop where
  joined : path = mount ++ '/' :: rest
  single : '/' ∉ mount
  without : ¬ dataSegment <:+: path

/-- The path that version 2 uses for it. -/
def withData (mount rest : List Char) : String := String.ofList (mount ++ dataSegment ++ rest)

/-- A text contains another one if that stands somewhere in it. -/
theorem contains_eq_true_iff {part s : List Char} : contains part s = true ↔ part <:+: s := by
  induction s with
  | nil => simp [contains]
  | cons c s ih =>
    rw [contains, Bool.or_eq_true, List.isPrefixOf_iff_prefix, ih, List.infix_cons_iff]

/-- The data segment is put after the mount. -/
theorem insertData_of_mount {mount : List Char} (h : '/' ∉ mount) (rest : List Char) :
    insertData (mount ++ '/' :: rest) = mount ++ dataSegment ++ rest := by
  have hmount : ∀ c ∈ mount, (c != '/') = true := by
    intro c hc
    simpa using fun heq : c = '/' => h (heq ▸ hc)
  rw [insertData, List.span_eq_takeWhile_dropWhile, List.takeWhile_append_of_pos hmount,
    List.dropWhile_append_of_pos hmount]
  simp

/-- Nothing is put into a path of one segment. -/
theorem insertData_of_single {path : List Char} (h : '/' ∉ path) : insertData path = path := by
  have hpath : ∀ c ∈ path, (c != '/') = true := by
    intro c hc
    simpa using fun heq : c = '/' => h (heq ▸ hc)
  rw [insertData, List.span_eq_takeWhile_dropWhile, List.dropWhile_eq_nil_iff.mpr hpath]

/-- A path with a slash is a mount and the rest. -/
theorem exists_mount {path : List Char} (h : '/' ∈ path) :
    ∃ mount rest, path = mount ++ '/' :: rest ∧ '/' ∉ mount := by
  induction path with
  | nil => cases h
  | cons c path ih =>
    by_cases hc : c = '/'
    · exact ⟨[], path, by rw [hc, List.nil_append], List.not_mem_nil⟩
    · obtain ⟨mount, rest, hpath, hmount⟩ :=
        ih ((List.mem_cons.mp h).resolve_left (Ne.symm hc))
      refine ⟨c :: mount, rest, by rw [hpath, List.cons_append], ?_⟩
      simp [hmount, Ne.symm hc]

/-- A path is asked for as it is, or it is a logical path of version 2. -/
theorem isFinal_or_isLogical (kvV2 : Bool) (path : List Char) :
    IsFinal kvV2 path ∨ kvV2 = true ∧ ∃ mount rest, IsLogical path mount rest := by
  by_cases hfinal : IsFinal kvV2 path
  · exact .inl hfinal
  · simp only [IsFinal, not_or, Bool.not_eq_false, not_not] at hfinal
    obtain ⟨hversion, hslash, hwithout⟩ := hfinal
    obtain ⟨mount, rest, hjoined, hsingle⟩ := exists_mount hslash
    exact .inr ⟨hversion, mount, rest, hjoined, hsingle, hwithout⟩

/-- A path that is asked for as it is loses its slashes only. -/
theorem apiPath_of_isFinal {kvV2 : Bool} {path : String}
    (h : IsFinal kvV2 (Text.trimSlashes path).toList) :
    apiPath kvV2 path = Text.trimSlashes path := by
  rw [Text.toList_trimSlashes] at h
  rw [← String.toList_inj, apiPath, String.toList_ofList, Text.toList_trimSlashes]
  rcases h with rfl | hsingle | hdata
  · simp
  · rw [insertData_of_single hsingle, ite_self]
  · rw [contains_eq_true_iff.mpr hdata, Bool.or_true, if_pos rfl]

/-- A logical path is asked for with the data segment. -/
theorem apiPath_of_isLogical {path : String} {mount rest : List Char}
    (h : IsLogical (Text.trimSlashes path).toList mount rest) :
    apiPath true path = withData mount rest := by
  obtain ⟨hjoined, hsingle, hwithout⟩ := h
  rw [Text.toList_trimSlashes] at hjoined hwithout
  have hcontains : contains dataSegment (Text.strip isSlash path.toList) = false := by
    rwa [← contains_eq_true_iff, Bool.not_eq_true] at hwithout
  rw [apiPath, hcontains, hjoined, insertData_of_mount hsingle]
  rfl

/-- Neither part of a logical path is empty, as no slash stands at its ends. -/
theorem IsLogical.parts_ne_nil {path : String} {mount rest : List Char}
    (h : IsLogical (Text.trimSlashes path).toList mount rest) : mount ≠ [] ∧ rest ≠ [] := by
  have hbare := Text.strip_bare isSlash path.toList
  rw [← Text.toList_trimSlashes, h.joined] at hbare
  have hslash : isSlash '/' ≠ false := by decide
  constructor
  · rintro rfl
    exact hslash (hbare.1 '/' rfl)
  · rintro rfl
    exact hslash (hbare.2 '/' (by simp))

/-- What stands at the ends of a logical path stands at the ends of its other spelling. -/
theorem IsLogical.ends_withData {p : Char → Bool} {path : String} {mount rest : List Char}
    (h : IsLogical (Text.trimSlashes path).toList mount rest)
    (hstarts : StartsWithout p (Text.trimSlashes path).toList)
    (hends : EndsWithout p (Text.trimSlashes path).toList) :
    StartsWithout p (withData mount rest).toList ∧ EndsWithout p (withData mount rest).toList := by
  obtain ⟨hmount, hrest⟩ := h.parts_ne_nil
  rw [h.joined] at hstarts hends
  rw [Text.startsWithout_append_iff _ hmount] at hstarts
  rw [Text.endsWithout_append_iff _ (List.cons_ne_nil _ _), ← List.singleton_append,
    Text.endsWithout_append_iff _ hrest] at hends
  rw [withData, String.toList_ofList, Text.endsWithout_append_iff _ hrest, List.append_assoc,
    Text.startsWithout_append_iff _ hmount]
  exact ⟨hstarts, hends⟩

/-- The path of a secret has a slash at neither end. -/
theorem apiPath_bare (kvV2 : Bool) (path : String) :
    StartsWithout isSlash (apiPath kvV2 path).toList ∧
      EndsWithout isSlash (apiPath kvV2 path).toList := by
  have hbare := Text.strip_bare isSlash path.toList
  rw [← Text.toList_trimSlashes] at hbare
  obtain hfinal | ⟨rfl, mount, rest, hlogical⟩ :=
    isFinal_or_isLogical kvV2 (Text.trimSlashes path).toList
  · rwa [apiPath_of_isFinal hfinal]
  · rw [apiPath_of_isLogical hlogical]
    exact hlogical.ends_withData hbare.1 hbare.2

/-- What is left of a path without slashes at its ends is the path. -/
theorem trimSlashes_eq_self {path : String} (hstarts : StartsWithout isSlash path.toList)
    (hends : EndsWithout isSlash path.toList) : Text.trimSlashes path = path := by
  rw [← String.toList_inj, Text.toList_trimSlashes, Text.strip_eq_self_iff]
  exact ⟨hstarts, hends⟩

/-- Slashes are gone once they were trimmed. -/
theorem trimSlashes_trimSlashes (path : String) :
    Text.trimSlashes (Text.trimSlashes path) = Text.trimSlashes path := by
  have hbare := Text.strip_bare isSlash path.toList
  rw [← Text.toList_trimSlashes] at hbare
  exact trimSlashes_eq_self hbare.1 hbare.2

/-- Slashes around a path are trimmed away. -/
theorem trimSlashes_enclosed (before : ℕ) (path : String) (after : ℕ) :
    Text.trimSlashes (enclosed before path after) = Text.trimSlashes path := by
  have hslashes : ∀ n, ∀ c ∈ (slashes n).toList, isSlash c = true := by
    intro n c hc
    rw [slashes, String.toList_ofList] at hc
    rw [List.eq_of_mem_replicate hc]
    rfl
  rw [← String.toList_inj, Text.toList_trimSlashes, Text.toList_trimSlashes, enclosed,
    String.toList_append, String.toList_append,
    Text.strip_surrounded (hslashes before) (hslashes after)]

/-- Paths with the same text between their slashes are asked for alike. -/
theorem apiPath_congr {path other : String}
    (h : Text.trimSlashes other = Text.trimSlashes path) (kvV2 : Bool) :
    apiPath kvV2 other = apiPath kvV2 path := by
  rw [← String.toList_inj, Text.toList_trimSlashes, Text.toList_trimSlashes] at h
  rw [apiPath, h, apiPath]

/-- Rewriting a path again changes nothing. -/
theorem apiPath_apiPath (kvV2 : Bool) (path : String) :
    apiPath kvV2 (apiPath kvV2 path) = apiPath kvV2 path := by
  have hbare := apiPath_bare kvV2 path
  have hkept := trimSlashes_eq_self hbare.1 hbare.2
  have hfinal : IsFinal kvV2 (Text.trimSlashes (apiPath kvV2 path)).toList := by
    rw [hkept]
    obtain hfinal | ⟨rfl, mount, rest, hlogical⟩ :=
      isFinal_or_isLogical kvV2 (Text.trimSlashes path).toList
    · rwa [apiPath_of_isFinal hfinal]
    · rw [apiPath_of_isLogical hlogical, withData, String.toList_ofList]
      exact .inr (.inr ⟨mount, rest, rfl⟩)
  rw [apiPath_of_isFinal hfinal, hkept]

/-- What the rewriting of a path does to it. -/
structure Rewritten (kvV2 : Bool) (path : String) : Prop where
  starts : StartsWithout isSlash (apiPath kvV2 path).toList
  ends : EndsWithout isSlash (apiPath kvV2 path).toList
  /-- Slashes around the path make no difference. -/
  enclosed : ∀ before after, apiPath kvV2 (enclosed before path after) = apiPath kvV2 path
  again : apiPath kvV2 (apiPath kvV2 path) = apiPath kvV2 path
  final : IsFinal kvV2 (Text.trimSlashes path).toList → apiPath kvV2 path = Text.trimSlashes path
  /-- A logical path gets the data segment, which is then all there is to do. -/
  logical : kvV2 = true → ∀ mount rest, IsLogical (Text.trimSlashes path).toList mount rest →
    rest ≠ [] ∧ apiPath kvV2 path = withData mount rest ∧
      dataSegment <:+: (apiPath kvV2 path).toList ∧
        apiPath kvV2 (withData mount rest) = apiPath kvV2 path

/-- Every path is rewritten so, for either version. -/
theorem rewritten (kvV2 : Bool) (path : String) : Rewritten kvV2 path where
  starts := (apiPath_bare kvV2 path).1
  ends := (apiPath_bare kvV2 path).2
  enclosed before after := apiPath_congr (trimSlashes_enclosed before path after) kvV2
  again := apiPath_apiPath kvV2 path
  final := apiPath_of_isFinal
  logical := by
    rintro rfl mount rest hlogical
    have hpath := apiPath_of_isLogical hlogical
    refine ⟨hlogical.parts_ne_nil.2, hpath, ?_, hpath ▸ apiPath_apiPath true path⟩
    rw [hpath, withData, String.toList_ofList]
    exact ⟨mount, rest, rfl⟩

end Store

namespace Profile

open Store (IsLogical enclosed withData)
open Text (isBlank isSlash StartsWithout EndsWithout)

/-- No blank stands right within the slashes around a path. -/
structure IsTight (path : String) : Prop where
  starts : StartsWithout isBlank (Text.trimSlashes path).toList
  ends : EndsWithout isBlank (Text.trimSlashes path).toList

/-- A slash is no blank. -/
theorem isBlank_of_isSlash (c : Char) (h : isSlash c = true) : isBlank c = false := by
  rw [eq_of_beq h]
  decide

/-- A tight path loses its slashes only. -/
theorem IsTight.normalPath_eq {path : String} (h : IsTight path) :
    normalPath path = Text.trimSlashes path := by
  have hstarts := h.starts
  have hends := h.ends
  rw [Text.toList_trimSlashes] at hstarts hends
  have hkept : Text.strip isBlank path.toList = path.toList :=
    Text.strip_eq_self_iff.mpr
      ⟨hstarts.of_strip isBlank_of_isSlash, hends.of_strip isBlank_of_isSlash⟩
  rw [← String.toList_inj, toList_normalPath, hkept, Text.toList_trimSlashes]

/-- Blanks within slashes stay. -/
theorem normalPath_enclosed (path : String) :
    normalPath (enclosed 1 path 1) = Text.trimSlashes path := by
  have htoList : (enclosed 1 path 1).toList = ['/'] ++ path.toList ++ ['/'] := by
    simp [enclosed, Store.slashes]
  have hkept : Text.strip isBlank (enclosed 1 path 1).toList = (enclosed 1 path 1).toList := by
    rw [htoList, Text.strip_eq_self_iff, Text.endsWithout_append_iff _ (List.cons_ne_nil _ _),
      List.append_assoc, Text.startsWithout_append_iff _ (List.cons_ne_nil _ _)]
    decide
  rw [← Store.trimSlashes_enclosed 1 path 1, ← String.toList_inj, toList_normalPath, hkept,
    Text.toList_trimSlashes]

/-- Settings differ in their path only as far as it is kept. -/
theorem ofSettings_secretPath {files : Files} (s : Settings) {path other : String}
    (h : normalPath other = normalPath path) :
    ofSettings files { s with secretPath := other } =
      ofSettings files { s with secretPath := path } := by
  simp only [ofSettings, h]

/-- Another path that is not empty either makes the same profile but for the path. -/
theorem ofSettings_other {files : Files} (s : Settings) {other : String}
    (hpath : normalPath s.secretPath ≠ "") (hother : normalPath other ≠ "") :
    ofSettings files { s with secretPath := other } =
      (ofSettings files s).map fun p => { p with secretPath := normalPath other } := by
  have hplace : checkPlace (normalAddress s.address) (normalPath other) =
      checkPlace (normalAddress s.address) (normalPath s.secretPath) := by
    simp only [checkPlace, String.isEmpty_eq_false_iff.mpr hpath,
      String.isEmpty_eq_false_iff.mpr hother]
  simp only [ofSettings, hplace]
  cases checkPlace (normalAddress s.address) (normalPath s.secretPath) with
  | error e => rfl
  | ok _ =>
    cases checkNames s.accessKeyName s.secretKeyName with
    | error e => rfl
    | ok _ =>
      cases checkDurations s.ttlMillis.toNat s.timeoutMillis.toNat s.fetchTimeoutMillis.toNat with
      | error e => rfl
      | ok _ => cases resolveToken files s.token s.tokenFile <;> rfl

/-- What the spelling of their path means for settings. -/
structure SpelledFreely (s : Settings) : Prop where
  /-- Slashes around a tight path make no difference to the profile, or to why there is none. -/
  slashes : IsTight s.secretPath → ∀ files other,
    Text.trimSlashes other = Text.trimSlashes s.secretPath →
      ofSettings files { s with secretPath := other } = ofSettings files s
  /-- Around no other path is it so. -/
  slashes_iff : ∀ files p, ofSettings files s = .ok p →
    ((∀ other, Text.trimSlashes other = Text.trimSlashes s.secretPath →
      ofSettings files { s with secretPath := other } = .ok p) ↔ IsTight s.secretPath)
  /-- Both spellings of a tight logical path make the same request. -/
  spellings : IsTight s.secretPath → s.kvV2 = true → ∀ mount rest,
    IsLogical (Text.trimSlashes s.secretPath).toList mount rest → ∀ files,
      (ofSettings files { s with secretPath := withData mount rest }).map Vault.requestFor =
        (ofSettings files s).map Vault.requestFor

/-- All settings are free in how they spell their path, as far as it is tight. -/
theorem spelledFreely (s : Settings) : SpelledFreely s := by
  have hslashes : IsTight s.secretPath → ∀ files other,
      Text.trimSlashes other = Text.trimSlashes s.secretPath →
        ofSettings files { s with secretPath := other } = ofSettings files s := by
    intro htight files other hsame
    have hother : IsTight other := ⟨hsame ▸ htight.starts, hsame ▸ htight.ends⟩
    apply ofSettings_secretPath
    rw [hother.normalPath_eq, htight.normalPath_eq, hsame]
  constructor
  case slashes => exact hslashes
  case slashes_iff =>
    intro files p haccepted
    constructor
    · -- what stands between the slashes is kept within them and, by itself, without them
      intro hsame
      have hcore := Store.trimSlashes_trimSlashes s.secretPath
      have hbare := ofSettings_eq_ok_iff.mp (hsame (Text.trimSlashes s.secretPath) hcore)
      have hwithin := ofSettings_eq_ok_iff.mp (hsame (enclosed 1 (Text.trimSlashes s.secretPath) 1)
        ((Store.trimSlashes_enclosed _ _ _).trans hcore))
      have hkept : normalPath (Text.trimSlashes s.secretPath) = Text.trimSlashes s.secretPath := by
        rw [← hbare.2.secretPath, hwithin.2.secretPath, normalPath_enclosed, hcore]
      obtain ⟨⟨hstarts, hends⟩, -⟩ := normalPath_eq_self_iff.mp hkept
      exact ⟨hstarts, hends⟩
    · intro htight other hsame
      exact (hslashes htight files other hsame).trans haccepted
  case spellings =>
    intro htight hversion mount rest hlogical files
    obtain ⟨hmount, -⟩ := hlogical.parts_ne_nil
    have hcore := htight.normalPath_eq
    have hrewritten := Store.rewritten true s.secretPath
    obtain ⟨-, hpath, -, hagain⟩ := hrewritten.logical rfl mount rest hlogical
    have hkept : normalPath (withData mount rest) = withData mount rest :=
      normalPath_eq_self_iff.mpr
        ⟨hlogical.ends_withData htight.starts htight.ends,
          hpath ▸ hrewritten.starts, hpath ▸ hrewritten.ends⟩
    have hnonempty : normalPath s.secretPath ≠ "" := by
      rw [hcore, Ne, ← String.toList_eq_nil_iff, hlogical.joined]
      simp
    have hother : normalPath (withData mount rest) ≠ "" := by
      rw [hkept, Ne, ← String.toList_eq_nil_iff, withData, String.toList_ofList]
      simp [hmount]
    rw [ofSettings_other s hnonempty hother, hkept]
    cases haccepted : ofSettings files s with
    | error e => rfl
    | ok p =>
      obtain ⟨-, hmade⟩ := ofSettings_eq_ok_iff.mp haccepted
      have hsame : Store.apiPath true p.secretPath = Store.apiPath true (withData mount rest) := by
        rw [hmade.secretPath, hcore, hagain]
        exact Store.apiPath_congr (Store.trimSlashes_trimSlashes _) true
      simp only [Except.map, Vault.requestFor, Vault.clientFor, hmade.kvV2, hversion, hsame]

/-- A secret is asked for under one path however its path is written, as far as no blank stands
right within the slashes around it. -/
theorem spellings_of_secretPath (kvV2 : Bool) (path : String) (s : Settings) :
    Store.Rewritten kvV2 path ∧ SpelledFreely s :=
  ⟨Store.rewritten kvV2 path, spelledFreely s⟩

/-- A slash before a blank keeps the blank in the path, and another secret is asked for. -/
theorem request_of_blank_within_slash :
    let s : Settings :=
      { Settings.initial with
        address := "http://vault.test:8200", token := some "root", secretPath := " a/b"
        accessKeyName := "ak", secretKeyName := "sk" }
    let request (segments : List String) : Store.Request :=
      ⟨⟨false, "vault.test", some 8200, segments, none⟩, "root"⟩
    (ofSettings .empty s).map Vault.requestFor = .ok (some (request ["v1", "a", "data", "b"])) ∧
      (ofSettings .empty { s with secretPath := enclosed 1 s.secretPath 0 }).map Vault.requestFor =
        .ok (some (request ["v1", "%20a", "data", "b"])) := by
  constructor <;> decide +kernel

end Profile

end FreshKeys
