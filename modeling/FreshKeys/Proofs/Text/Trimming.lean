import FreshKeys.Text.Blank
import Mathlib.Data.List.DropRight

/-!
# What is left of a trimmed text

Trimming leaves a text that has no character of the class at its ends, leaves such a text alone,
and leaves nothing exactly of a text of that class only. What is done at one end does not show at
the other, except that nothing may be left.
-/

namespace FreshKeys.Text

/-- A text does not start with a character of a class. -/
def StartsWithout (p : Char → Bool) (s : List Char) : Prop := ∀ c ∈ s.head?, p c = false

/-- A text does not end with a character of a class. -/
def EndsWithout (p : Char → Bool) (s : List Char) : Prop := ∀ c ∈ s.getLast?, p c = false

variable {p : Char → Bool} {s : List Char}

/-- It is enough to look at the first element. -/
instance : Decidable (StartsWithout p s) :=
  decidable_of_iff (s.head?.all (fun c => !p c) = true)
    (by cases h : s.head? <;> simp [StartsWithout, h])

/-- It is enough to look at the last element. -/
instance : Decidable (EndsWithout p s) :=
  decidable_of_iff (s.getLast?.all (fun c => !p c) = true)
    (by cases h : s.getLast? <;> simp [EndsWithout, h])

/-- What is trimmed at the start starts without the class. -/
theorem startsWithout_dropStart (p : Char → Bool) (s : List Char) :
    StartsWithout p (dropStart p s) := by
  intro c hc
  have hfirst := List.head?_dropWhile_not p s
  rw [dropStart, Option.mem_def] at hc
  rwa [hc] at hfirst

/-- Only what starts without the class is left alone when it is trimmed at the start. -/
theorem dropStart_eq_self_iff : dropStart p s = s ↔ StartsWithout p s := by
  constructor
  · intro h
    exact h ▸ startsWithout_dropStart p s
  · intro h
    cases s with
    | nil => rfl
    | cons c rest => simp [dropStart, h c rfl]

/-- The end of a text is the start of its reverse. -/
theorem endsWithout_iff : EndsWithout p s ↔ StartsWithout p s.reverse := by
  simp [EndsWithout, StartsWithout]

/-- What is trimmed at the end ends without the class. -/
theorem endsWithout_dropEnd (p : Char → Bool) (s : List Char) : EndsWithout p (dropEnd p s) := by
  rw [endsWithout_iff, dropEnd, List.reverse_reverse]
  exact startsWithout_dropStart p s.reverse

/-- Only what ends without the class is left alone when it is trimmed at the end. -/
theorem dropEnd_eq_self_iff : dropEnd p s = s ↔ EndsWithout p s := by
  rw [endsWithout_iff, ← dropStart_eq_self_iff, dropEnd, dropStart, List.reverse_eq_iff]

/-- What is trimmed at the end starts as before, unless nothing is left. -/
theorem dropEnd_opening (p : Char → Bool) (s : List Char) : dropEnd p s <+: s :=
  List.rdropWhile_prefix p s

/-- What is trimmed at the end starts as before. -/
theorem StartsWithout.dropEnd {q : Char → Bool} (h : StartsWithout q s) (p : Char → Bool) :
    StartsWithout q (dropEnd p s) := by
  obtain ⟨rest, hrest⟩ := dropEnd_opening p s
  intro c hc
  refine h c ?_
  rw [← hrest, List.head?_append, Option.mem_def.mp hc]
  rfl

/-- What is trimmed has the class at neither end. -/
theorem strip_bare (p : Char → Bool) (s : List Char) :
    StartsWithout p (strip p s) ∧ EndsWithout p (strip p s) :=
  ⟨(startsWithout_dropStart p s).dropEnd p, endsWithout_dropEnd p _⟩

/-- Only what has the class at neither end is left alone. -/
theorem strip_eq_self_iff : strip p s = s ↔ StartsWithout p s ∧ EndsWithout p s := by
  constructor
  · intro h
    exact h ▸ strip_bare p s
  · rintro ⟨hstarts, hends⟩
    rw [strip, dropStart_eq_self_iff.mpr hstarts, dropEnd_eq_self_iff.mpr hends]

/-- Nothing is left of a text of the class only, and of no other. -/
theorem strip_eq_nil_iff : strip p s = [] ↔ ∀ c ∈ s, p c = true := by
  have hend : strip p s = [] ↔ ∀ c ∈ dropStart p s, p c = true :=
    List.rdropWhile_eq_nil_iff
  rw [hend]
  constructor
  · intro h
    have hnil : dropStart p s = [] := by
      cases hdrop : dropStart p s with
      | nil => rfl
      | cons c rest =>
        have hbare := startsWithout_dropStart p s c (by rw [hdrop]; rfl)
        simp [h c (by simp [hdrop])] at hbare
    exact List.dropWhile_eq_nil_iff.mp hnil
  · intro h c hc
    exact h c ((List.dropWhile_sublist p).subset hc)

/-- Trimming leaves characters out. -/
theorem strip_sublist (p : Char → Bool) (s : List Char) : (strip p s).Sublist s :=
  (dropEnd_opening p _).sublist.trans (List.dropWhile_sublist p)

/-- Leaving characters out twice leaves a text alone only if it does so either time. -/
theorem cut_cut_eq_self_iff {f g : List Char → List Char} (hf : (f s).Sublist s)
    (hg : ∀ t, (g t).Sublist t) : g (f s) = s ↔ f s = s ∧ g s = s := by
  constructor
  · intro h
    have hlength : s.length ≤ (f s).length := by
      calc s.length = (g (f s)).length := by rw [h]
        _ ≤ (f s).length := (hg (f s)).length_le
    have hkept : f s = s := hf.eq_of_length_le hlength
    exact ⟨hkept, by rwa [hkept] at h⟩
  · rintro ⟨hkept, h⟩
    rw [hkept, h]

/-- What stands before a character of another class is kept when the end is trimmed. -/
theorem dropEnd_append {start : List Char} (h : EndsWithout p start) (s : List Char) :
    dropEnd p (start ++ s) = start ++ dropEnd p s := by
  have hstart : dropStart p start.reverse = start.reverse :=
    dropStart_eq_self_iff.mpr (endsWithout_iff.mp h)
  rw [dropEnd, dropEnd, List.reverse_append, List.dropWhile_append]
  split
  · rename_i hempty
    rw [List.isEmpty_iff.mp hempty, ← dropStart, hstart]
    simp
  · simp

/-- Trimming takes characters of the class from the ends, and no others. -/
theorem exists_eq_append_strip (p : Char → Bool) (s : List Char) :
    ∃ before after, (∀ c ∈ before, p c = true) ∧ (∀ c ∈ after, p c = true) ∧
      s = before ++ strip p s ++ after := by
  refine ⟨s.takeWhile p, (dropStart p s).rtakeWhile p, fun c hc => List.mem_takeWhile_imp hc,
    fun c hc => List.mem_rtakeWhile_imp hc, ?_⟩
  have hend : strip p s ++ (dropStart p s).rtakeWhile p = dropStart p s :=
    List.rdropWhile_append_rtakeWhile
  rw [List.append_assoc, hend, dropStart, List.takeWhile_append_dropWhile]

/-- Characters of the class around a text make no difference to what is left. -/
theorem strip_surrounded {before after : List Char} (hbefore : ∀ c ∈ before, p c = true)
    (hafter : ∀ c ∈ after, p c = true) (s : List Char) :
    strip p (before ++ s ++ after) = strip p s := by
  have hend : ∀ t, dropEnd p (t ++ after) = dropEnd p t := by
    intro t
    rw [dropEnd, List.reverse_append,
      List.dropWhile_append_of_pos fun c hc => hafter c (List.mem_reverse.mp hc), dropEnd]
  have hstart : dropStart p (before ++ s ++ after) = dropStart p (s ++ after) := by
    rw [List.append_assoc, dropStart, List.dropWhile_append_of_pos hbefore, dropStart]
  rw [strip, hstart, dropStart, List.dropWhile_append]
  split
  · rename_i hempty
    have hnone : dropEnd p after = [] := by simpa [dropEnd] using hend []
    have hdrop : dropStart p s = [] := List.isEmpty_iff.mp hempty
    rw [List.dropWhile_eq_nil_iff.mpr hafter, strip, hdrop]
  · exact hend _

/-- A text starts without a class if what is left of it does when another class is trimmed. -/
theorem StartsWithout.of_strip {q : Char → Bool} (h : StartsWithout q (strip p s))
    (hother : ∀ c, p c = true → q c = false) : StartsWithout q s := by
  obtain ⟨before, after, hbefore, hafter, hs⟩ := exists_eq_append_strip p s
  intro c hc
  rw [hs] at hc
  cases before with
  | cons d before =>
    obtain rfl : d = c := by simpa using hc
    exact hother d (hbefore d List.mem_cons_self)
  | nil =>
    cases hleft : strip p s with
    | cons d left =>
      rw [hleft] at hc
      exact h c (by rw [hleft]; simpa using hc)
    | nil =>
      rw [hleft] at hc
      exact hother c (hafter c (List.mem_of_mem_head? (by simpa using hc)))

/-- Trimming at both ends is the same from either side. -/
theorem strip_reverse (p : Char → Bool) (s : List Char) :
    strip p s.reverse = (strip p s).reverse := by
  obtain ⟨before, after, hbefore, hafter, hs⟩ := exists_eq_append_strip p s
  have hbare := strip_bare p s
  have hkept : strip p (strip p s).reverse = (strip p s).reverse := by
    rw [strip_eq_self_iff, endsWithout_iff, List.reverse_reverse, ← endsWithout_iff]
    exact hbare.symm
  have hreverse : s.reverse = after.reverse ++ (strip p s).reverse ++ before.reverse := by
    conv_lhs => rw [hs]
    simp
  rw [hreverse, strip_surrounded (fun c hc => hafter c (List.mem_reverse.mp hc))
    (fun c hc => hbefore c (List.mem_reverse.mp hc)), hkept]

/-- A text ends without a class if what is left of it does when another class is trimmed. -/
theorem EndsWithout.of_strip {q : Char → Bool} (h : EndsWithout q (strip p s))
    (hother : ∀ c, p c = true → q c = false) : EndsWithout q s := by
  rw [endsWithout_iff] at h ⊢
  rw [← strip_reverse] at h
  exact h.of_strip hother

/-- The end of a text is the end of its last part. -/
theorem endsWithout_append_iff (start : List Char) (h : s ≠ []) :
    EndsWithout p (start ++ s) ↔ EndsWithout p s := by
  rw [EndsWithout, List.getLast?_append_of_ne_nil start h, EndsWithout]

/-- The start of a text is the start of its first part. -/
theorem startsWithout_append_iff (rest : List Char) (h : s ≠ []) :
    StartsWithout p (s ++ rest) ↔ StartsWithout p s := by
  rw [StartsWithout, List.head?_append_of_ne_nil s h, StartsWithout]

end FreshKeys.Text
