import FreshKeys.Text.Pieces
import FreshKeys.Text.Blank
import Mathlib.Data.List.Flatten

/-!
# Pieces of a text and its bytes

Pieces hold no separators and lose nothing else, so a text is determined by its pieces as soon as
there is one separator only. Counted in bytes, the pieces of a text and one more for each of them
make one more than the text: a count that every step of reading an address can only lower.
-/

namespace FreshKeys.Text

/-- The bytes that spell a text in UTF-8. -/
def utf8 (s : List Char) : List UInt8 := s.flatMap String.utf8EncodeChar

/-- The empty text has no bytes. -/
@[simp]
theorem utf8_nil : utf8 [] = [] := rfl

/-- The bytes of a text are those of its first character, and those of the rest. -/
@[simp]
theorem utf8_cons (c : Char) (s : List Char) : utf8 (c :: s) = String.utf8EncodeChar c ++ utf8 s :=
  rfl

/-- The bytes of a text determine it. -/
theorem utf8_inj {s t : List Char} : utf8 s = utf8 t ↔ s = t := by
  constructor
  · intro h
    have hbytes : (String.ofList s).toByteArray = (String.ofList t).toByteArray := by
      rw [String.toByteArray_ofList, String.toByteArray_ofList]
      exact congrArg List.toByteArray h
    exact String.ofList_inj.mp (String.toByteArray_inj.mp hbytes)
  · rintro rfl
    rfl

/-- A text that leaves out characters of another one leaves out their bytes. -/
theorem utf8_sublist {s t : List Char} (h : s.Sublist t) : (utf8 s).Sublist (utf8 t) :=
  h.flatMap String.utf8EncodeChar

/-- It is as long in bytes only if it is that one. -/
theorem eq_of_sublist_of_length_utf8 {s t : List Char} (h : s.Sublist t)
    (hlength : (utf8 t).length ≤ (utf8 s).length) : s = t :=
  utf8_inj.mp ((utf8_sublist h).eq_of_length_le hlength)

variable {p q : Char → Bool} {s : List Char}

/-- A separator ends an empty piece. -/
theorem pieces_separator {c : Char} (h : p c = true) (s : List Char) :
    pieces p (c :: s) = [] :: pieces p s := by
  simp [pieces, h]

/-- A character that separates nothing belongs to the first piece. -/
theorem pieces_other {c : Char} (h : p c = false) (s : List Char) :
    ∃ first others, pieces p s = first :: others ∧ pieces p (c :: s) = (c :: first) :: others := by
  obtain ⟨first, others, hpieces⟩ := List.exists_cons_of_ne_nil (pieces_ne_nil p s)
  exact ⟨first, others, hpieces, by simp [pieces, h, hpieces]⟩

/-- A text without separators is one piece. -/
theorem pieces_of_no_separator (h : ∀ c ∈ s, p c = false) : pieces p s = [s] := by
  induction s with
  | nil => rfl
  | cons c s ih =>
    obtain ⟨hc, hrest⟩ := List.forall_mem_cons.mp h
    simp [pieces, hc, ih hrest]

/-- A piece ends at the separator after it. -/
theorem pieces_append_separator {c : Char} (hc : p c = true) {first : List Char}
    (hfirst : ∀ d ∈ first, p d = false) (s : List Char) :
    pieces p (first ++ c :: s) = first :: pieces p s := by
  induction first with
  | nil => exact pieces_separator hc s
  | cons d first ih =>
    obtain ⟨_, _, hpieces, hcons⟩ := pieces_other (hfirst d List.mem_cons_self) (first ++ c :: s)
    rw [ih fun d hd => hfirst d (List.mem_cons_of_mem _ hd)] at hpieces
    rw [List.cons_append, hcons, ← (List.cons.inj hpieces).1, ← (List.cons.inj hpieces).2]

/-- Pieces are made of the characters that separate nothing. -/
theorem mem_pieces_iff {c : Char} :
    (∃ piece ∈ pieces p s, c ∈ piece) ↔ c ∈ s ∧ p c = false := by
  induction s with
  | nil => simp [pieces]
  | cons d s ih =>
    cases hd : p d with
    | true =>
      rw [pieces_separator hd]
      simp only [List.mem_cons, exists_eq_or_imp, List.not_mem_nil, false_or, ih]
      constructor
      · exact fun h => ⟨.inr h.1, h.2⟩
      · rintro ⟨rfl | hmem, hc⟩
        · rw [hd] at hc
          cases hc
        · exact ⟨hmem, hc⟩
    | false =>
      obtain ⟨first, others, hpieces, hcons⟩ := pieces_other hd s
      rw [hpieces] at ih
      simp only [List.mem_cons, exists_eq_or_imp] at ih
      rw [hcons]
      simp only [List.mem_cons, exists_eq_or_imp, or_assoc, ih]
      constructor
      · rintro (rfl | ⟨hmem, hc⟩)
        · exact ⟨.inl rfl, hd⟩
        · exact ⟨.inr hmem, hc⟩
      · rintro ⟨rfl | hmem, hc⟩
        · exact .inl rfl
        · exact .inr ⟨hmem, hc⟩

/-- Only the characters of a text decide how it is cut. -/
theorem pieces_congr (h : ∀ c ∈ s, p c = q c) : pieces p s = pieces q s := by
  induction s with
  | nil => rfl
  | cons c s ih =>
    simp only [pieces, h c List.mem_cons_self, ih fun c hc => h c (List.mem_cons_of_mem _ hc)]

/-- Pieces between slashes, joined by slashes, are the text. -/
theorem intercalate_pieces (s : List Char) : ['/'].intercalate (pieces isSlash s) = s := by
  induction s with
  | nil => rfl
  | cons c s ih =>
    cases hc : isSlash c with
    | true =>
      obtain ⟨first, others, hpieces⟩ := List.exists_cons_of_ne_nil (pieces_ne_nil isSlash s)
      rw [pieces_separator hc, hpieces, List.intercalate_cons_cons, ← hpieces, ih]
      simp [eq_of_beq hc]
    | false =>
      obtain ⟨first, others, hpieces, hcons⟩ := pieces_other hc s
      rw [hpieces] at ih
      rw [hcons]
      cases others with
      | nil => simpa using ih
      | cons second others =>
        rw [List.intercalate_cons_cons] at ih ⊢
        rw [List.cons_append, List.cons_append, ih]

/-- What pieces weigh, each with a separator. -/
def weigh (w : List Char → Nat) : List (List Char) → Nat
  | [] => 0
  | s :: segments => w s + 1 + weigh w segments

section Weight

variable {w v : List Char → Nat}

/-- No pieces weigh nothing. -/
@[simp]
theorem weigh_nil : weigh w [] = 0 := rfl

/-- A piece weighs as much as it does by itself, and one for its separator. -/
@[simp]
theorem weigh_cons (s : List Char) (segments : List (List Char)) :
    weigh w (s :: segments) = w s + 1 + weigh w segments := rfl

/-- Pieces one after the other weigh what both parts do. -/
theorem weigh_append (segments others : List (List Char)) :
    weigh w (segments ++ others) = weigh w segments + weigh w others := by
  induction segments with
  | nil => simp
  | cons s segments ih =>
    rw [List.cons_append, weigh_cons, weigh_cons, ih]
    omega

/-- The order of pieces does not change what they weigh. -/
theorem weigh_reverse (segments : List (List Char)) :
    weigh w segments.reverse = weigh w segments := by
  induction segments with
  | nil => rfl
  | cons s segments ih =>
    rw [List.reverse_cons, weigh_append, ih, weigh_cons, weigh_cons, weigh_nil]
    omega

/-- Pieces of the same bytes weigh the same. -/
theorem weigh_eq_of_map_eq {f g : List Char → List UInt8} {segments others : List (List Char)}
    (h : segments.map f = others.map g) :
    weigh (fun s => (f s).length) segments = weigh (fun s => (g s).length) others := by
  induction segments generalizing others with
  | nil => rw [List.map_eq_nil_iff.mp h.symm, weigh_nil, weigh_nil]
  | cons s segments ih =>
    obtain ⟨t, others, rfl, ht, hothers⟩ := List.map_eq_cons_iff.mp h.symm
    rw [weigh_cons, weigh_cons, ih hothers.symm, ht]

/-- Lighter pieces weigh less, unless all of them weigh the same. -/
theorem weigh_le (h : ∀ s, w s ≤ v s) (segments : List (List Char)) :
    weigh w segments ≤ weigh v segments ∧
      (weigh w segments = weigh v segments → ∀ s ∈ segments, w s = v s) := by
  induction segments with
  | nil => simp
  | cons s segments ih =>
    have hs := h s
    simp only [weigh_cons, List.forall_mem_cons]
    refine ⟨by omega, fun hequal => ⟨by omega, ih.2 (by omega)⟩⟩

/-- The pieces of a text weigh one byte more than it. -/
theorem weigh_pieces (h : ∀ c, p c = true → (String.utf8EncodeChar c).length = 1)
    (s : List Char) :
    weigh (fun s => (utf8 s).length) (pieces p s) = (utf8 s).length + 1 := by
  induction s with
  | nil => rfl
  | cons c s ih =>
    cases hc : p c with
    | true =>
      rw [pieces_separator hc, weigh_cons, ih, utf8_cons, List.length_append, h c hc, utf8_nil,
        List.length_nil]
      omega
    | false =>
      obtain ⟨first, others, hpieces, hcons⟩ := pieces_other hc s
      rw [hpieces, weigh_cons] at ih
      rw [hcons, weigh_cons, utf8_cons, utf8_cons, List.length_append, List.length_append]
      omega

end Weight

end FreshKeys.Text
