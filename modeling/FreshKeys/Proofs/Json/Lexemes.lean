import FreshKeys.Json.Print
import Mathlib.Data.Int.Notation
import Mathlib.Data.Nat.Notation

/-!
# What is spelled is scanned

The characters that a text or an integer is written with are one token, whatever may follow it in a
document, and the token has the value that was written.
-/

namespace FreshKeys.Json

open FreshKeys.Text (Mark)

namespace Token

/-- A digit in base sixteen is read as it was written. -/
theorem hexDigit?_hexDigit (n : ℕ) : hexDigit? (some (hexDigit n)) = some (n % 16) := by
  have hdigit : ∀ m < 16, hexDigit? (some (Nat.digitChar m)) = some m := by decide
  exact hdigit (n % 16) (Nat.mod_lt n (by omega))

/-- The escape of a control character is read as the character. -/
theorem pieces_unit (done : List Piece) {c : Char} (hc : c.toNat < 0x20) (rest : List Mark) :
    pieces done (some '\\' :: some 'u' :: some '0' :: some '0' ::
        some (hexDigit (c.toNat / 16)) :: some (hexDigit c.toNat) :: rest) =
      pieces (.char c :: done) rest := by
  have hunit : unit? (some '0') (some '0') (some (hexDigit (c.toNat / 16)))
      (some (hexDigit c.toNat)) = some c.toNat := by
    have hzero : hexDigit? (some '0') = some 0 := by decide
    simp only [unit?, hzero, hexDigit?_hexDigit, Option.bind_eq_bind, Option.bind_some,
      Option.some.injEq]
    omega
  have hpiece : pieceOfUnit c.toNat = .char c := by
    have hhigh : isHigh c.toNat = false := by simp [isHigh]; omega
    have hlow : isLow c.toNat = false := by simp [isLow]; omega
    simp [pieceOfUnit, hhigh, hlow, Char.ofNat_toNat]
  simp only [pieces, hunit, hpiece]

/-- A character without an escape is read as itself. -/
theorem pieces_plain (done : List Piece) {c : Char} (hquote : c ≠ '"') (hslash : c ≠ '\\')
    (hc : ¬ c.toNat < 0x20) (rest : List Mark) :
    pieces done (some c :: rest) = pieces (.char c :: done) rest := by
  rw [pieces, if_neg hc] <;> simp_all

/-- A character is read back from the way it is written between quotes. -/
theorem pieces_escape (done : List Piece) (c : Char) (rest : List Mark) :
    pieces done ((escape c).map some ++ rest) = pieces (.char c :: done) rest := by
  by_cases hshort : c ∈ ['"', '\\', '\x08', '\x0c', '\n', '\r', '\t']
  · simp only [List.mem_cons, List.not_mem_nil, or_false] at hshort
    rcases hshort with rfl | rfl | rfl | rfl | rfl | rfl | rfl <;> rfl
  · simp only [List.mem_cons, List.not_mem_nil, or_false, not_or] at hshort
    obtain ⟨hquote, hslash, hback, hfeed, hline, hreturn, htab⟩ := hshort
    simp only [escape, hquote, hslash, hback, hfeed, hline, hreturn, htab, if_false]
    by_cases hcontrol : c.toNat < 0x20
    · rw [if_pos hcontrol]
      exact pieces_unit done hcontrol rest
    · rw [if_neg hcontrol, List.map_singleton, List.singleton_append]
      exact pieces_plain done hquote hslash hcontrol rest

/-- The characters of a text are read back up to its closing quote. -/
theorem pieces_spelled (done : List Piece) (cs : List Char) (rest : List Mark) :
    pieces done ((cs.flatMap escape).map some ++ some '"' :: rest) =
      some (done.reverse ++ cs.map .char, rest) := by
  induction cs generalizing done with
  | nil => simp [pieces]
  | cons c cs ih =>
    rw [List.flatMap_cons, List.map_append, List.append_assoc, pieces_escape, ih]
    simp

/-- Characters are joined to themselves. -/
theorem join_chars (cs : List Char) : join (cs.map .char) = some cs := by
  induction cs with
  | nil => rfl
  | cons c cs ih => rw [List.map_cons, join, ih, Option.map_some]

/-- A text between quotes is one token. -/
theorem next_spellText (s : String) (rest : List Mark) :
    next ((spellText s).map some ++ rest) = some (.text (some s), rest) := by
  have hshape : (spellText s).map some ++ rest =
      some '"' :: ((s.toList.flatMap escape).map some ++ some '"' :: rest) := by
    simp [spellText]
  rw [hshape]
  simp only [next, pieces_spelled, List.reverse_nil, List.nil_append, Option.map_some, join_chars,
    String.ofList_toList]

end Token

namespace Literal

/-- The digits that a natural number is written with. -/
def digitsOf (n : ℕ) : List ℕ := (Nat.toDigits 10 n).map fun c => c.toNat - '0'.toNat

/-- The digits of a number spell it. -/
theorem ofDigits_digitsOf (n : ℕ) : ofDigits (digitsOf n) = n := by
  have hfold := Nat.ofDigitChars_ten_toDigits.symm.trans
    (Nat.ofDigitChars_eq_foldl (b := 10) (l := Nat.toDigits 10 n))
  simp only [ofDigits, digitsOf, List.foldl_map]
  simpa only [Nat.mul_comm] using hfold.symm

/-- A number is written without needless zeros: one that is not zero does not begin with one. -/
theorem digitsOf_eq_cons {n : ℕ} (hn : 0 < n) : ∃ d ds, digitsOf n = d :: ds ∧ d ≠ 0 := by
  induction n using Nat.strongRecOn with
  | _ n ih =>
    by_cases hsmall : n < 10
    · have hvalue : ∀ d < 10, (Nat.digitChar d).toNat - '0'.toNat = d := by decide
      refine ⟨n, [], ?_, by omega⟩
      rw [digitsOf, Nat.toDigits_of_lt_base hsmall, List.map_singleton, hvalue n hsmall]
    · obtain ⟨d, ds, hdigits, hd⟩ := ih (n / 10) (by omega) (by omega)
      refine ⟨d, ds ++ [(Nat.digitChar (n % 10)).toNat - '0'.toNat], ?_, hd⟩
      rw [digitsOf, Nat.toDigits_of_base_le (by omega) (by omega), List.map_append]
      exact congrArg (· ++ _) hdigits

/-- The digits of a number make a whole part. -/
theorem wellStarted_digitsOf (n : ℕ) : wellStarted (digitsOf n) = true := by
  by_cases hn : 0 < n
  · obtain ⟨d, ds, hdigits, hd⟩ := digitsOf_eq_cons hn
    cases ds with
    | nil => rw [hdigits, wellStarted]
    | cons _ _ => simpa [hdigits, wellStarted] using hd
  · obtain rfl := Nat.eq_zero_of_not_pos hn
    rfl

/-- Digits only let a number grow. -/
theorem le_foldl (n : ℕ) (ds : List ℕ) : n ≤ ds.foldl (fun n d => n * 10 + d) n := by
  induction ds generalizing n with
  | nil => exact Nat.le_refl n
  | cons d ds ih =>
    have hnext := ih (n * 10 + d)
    rw [List.foldl_cons]
    omega

/-- All digits fit of a number that fits. -/
theorem fill_of_le {n : ℕ} {ds : List ℕ} (h : ds.foldl (fun n d => n * 10 + d) n ≤ maxWord) :
    fill n ds = (ds.foldl (fun n d => n * 10 + d) n, []) := by
  induction ds generalizing n with
  | nil => rfl
  | cons d ds ih =>
    rw [List.foldl_cons] at h ⊢
    rw [fill, if_pos (Nat.le_trans (le_foldl _ ds) h), ih h]

/-- All digits fit of a number of 64 bits. -/
theorem fill_digitsOf {n : ℕ} (hn : n ≤ maxWord) : fill 0 (digitsOf n) = (n, []) := by
  have hfold : (digitsOf n).foldl (fun n d => n * 10 + d) 0 = n := ofDigits_digitsOf n
  rw [fill_of_le (by rwa [hfold]), hfold]

/-- Digits are read as long as there are any. -/
theorem digits_append {cs : List Char} (hcs : ∀ c ∈ cs, c.isDigit = true) {rest : List Mark}
    (hrest : ∀ c, rest.head? = some (some c) → c.isDigit = false) :
    digits (cs.map some ++ rest) = (cs.map fun c => c.toNat - '0'.toNat, rest) := by
  induction cs with
  | nil =>
    cases rest with
    | nil => rfl
    | cons m rest =>
      cases m with
      | none => rfl
      | some c => simp [digits, hrest c rfl]
  | cons c cs ih =>
    have hdigit := hcs c List.mem_cons_self
    simp [digits, hdigit, ih fun d hd => hcs d (List.mem_cons_of_mem _ hd)]

end Literal

/-- What may follow a value in a document: nothing, a comma or a closing bracket. -/
def Delimits (rest : List Mark) : Prop :=
  ∀ m, rest.head? = some m → m = some ',' ∨ m = some ']' ∨ m = some '\x7d'

namespace Literal

/-- The literal of an integer. -/
def ofInt (n : ℤ) : Literal := ⟨decide (n < 0), digitsOf n.natAbs, [], none⟩

/-- An integer is written with a sign and its digits. -/
theorem toList_toString (n : ℤ) :
    (toString n).toList = (if n < 0 then ['-'] else []) ++ Nat.toDigits 10 n.natAbs := by
  cases n with
  | ofNat n =>
    have htext : toString (Int.ofNat n) = toString n := rfl
    have hsign : ¬ Int.ofNat n < 0 := Int.not_lt.mpr (Int.natCast_nonneg n)
    rw [htext, Nat.toString_eq_ofList_toDigits, String.toList_ofList, if_neg hsign]
    rfl
  | negSucc n =>
    have htext : toString (Int.negSucc n) = "-" ++ toString (n + 1) := rfl
    simp only [htext, String.toList_append, Nat.toString_eq_ofList_toDigits, String.toList_ofList,
      Int.negSucc_lt_zero, if_true]
    rfl

/-- There is no sign before digits. -/
theorem scanSign_digits {cs : List Char} (hcs : ∀ c ∈ cs, c.isDigit = true) (hne : cs ≠ [])
    (rest : List Mark) : scanSign (cs.map some ++ rest) = (false, cs.map some ++ rest) := by
  cases cs with
  | nil => exact absurd rfl hne
  | cons c cs =>
    have hdigit := hcs c List.mem_cons_self
    have hc : c ≠ '-' := by
      rintro rfl
      cases hdigit
    simp [scanSign, hc]

/-- What follows a number in a document does not go on with it. -/
theorem scan_after {rest : List Mark} (hrest : Delimits rest) :
    (∀ c, rest.head? = some (some c) → c.isDigit = false) ∧ scanFraction rest = some ([], rest) ∧
      scanExponent rest = some (none, rest) := by
  cases rest with
  | nil => exact ⟨fun c hc => (nomatch hc), rfl, rfl⟩
  | cons m rest =>
    rcases hrest m rfl with rfl | rfl | rfl <;>
      exact ⟨fun c hc => by cases hc; rfl, rfl, rfl⟩

/-- The characters of an integer are one literal. -/
theorem scan_toString (n : ℤ) {rest : List Mark} (hrest : Delimits rest) :
    scan ((toString n).toList.map some ++ rest) = some (ofInt n, rest) := by
  obtain ⟨hdigit, hfraction, hexponent⟩ := scan_after hrest
  have hall : ∀ c ∈ Nat.toDigits 10 n.natAbs, c.isDigit = true :=
    fun c hc => Nat.isDigit_of_mem_toDigits (by omega) (by omega) hc
  have hdigits : digits ((Nat.toDigits 10 n.natAbs).map some ++ rest) =
      (digitsOf n.natAbs, rest) :=
    digits_append hall hdigit
  have hsign : scanSign ((toString n).toList.map some ++ rest) =
      (decide (n < 0), (Nat.toDigits 10 n.natAbs).map some ++ rest) := by
    rw [toList_toString, List.map_append, List.append_assoc]
    by_cases hn : n < 0
    · simp [hn, scanSign]
    · simp only [hn, if_false, List.map_nil, List.nil_append, decide_false]
      exact scanSign_digits hall Nat.toDigits_ne_nil rest
  simp only [scan, hsign, hdigits, wellStarted_digitsOf, if_true, hfraction, hexponent,
    Option.bind_eq_bind, Option.bind_some, ofInt]

/-- An integer of 64 bits is the number of its literal. -/
theorem number?_ofInt {n : ℤ} (hlow : -(Nat.pow 2 63 : ℤ) ≤ n) (hhigh : n ≤ maxWord) :
    (ofInt n).number? = some (.int n) := by
  have hfits : n.natAbs ≤ maxWord := by
    have hsign : Nat.pow 2 63 ≤ maxWord := by decide
    omega
  simp only [number?, ofInt, fill_digitsOf hfits, List.isEmpty_nil, Option.isNone_none,
    Bool.and_self, if_true, integer?]
  by_cases hn : n < 0
  · have hrange : 1 ≤ n.natAbs ∧ n.natAbs ≤ Nat.pow 2 63 := by
      omega
    have hvalue : -(n.natAbs : ℤ) = n := by omega
    rw [decide_eq_true hn, Bool.not_true, if_neg Bool.false_ne_true, if_pos hrange, hvalue]
  · have hvalue : (n.natAbs : ℤ) = n := by omega
    rw [decide_eq_false hn, Bool.not_false, if_pos rfl, hvalue]

end Literal

namespace Token

variable {t : Token} {rest : List Mark}

/-- Without a gap before it, the next token is the first one scanned. -/
theorem scan_of_next {m : Mark} {s tail : List Mark} (hm : isGap m = false)
    (hnext : next (m :: s) = some (t, tail)) : scan (m :: s) = t :: scan tail := by
  have hdrop : (m :: s).dropWhile isGap = m :: s := by rw [List.dropWhile_cons, hm]; rfl
  rw [scan]
  split
  · rename_i hs
    rw [hdrop] at hs
    cases hs
  · rename_i hs
    rw [hdrop] at hs
    cases hs
    split
    · rename_i hn
      rw [hnext] at hn
      cases hn
    · rename_i hn
      rw [hnext] at hn
      cases hn
      rfl

/-- Nothing is scanned from nothing. -/
@[simp] theorem scan_nil : scan [] = [] := by
  rw [scan]
  rfl

/-- A comma is a token of its own. -/
@[simp] theorem scan_comma : scan (some ',' :: rest) = .comma :: scan rest := scan_of_next rfl rfl

/-- So is a colon. -/
@[simp] theorem scan_colon : scan (some ':' :: rest) = .colon :: scan rest := scan_of_next rfl rfl

/-- So is the start of an array. -/
@[simp] theorem scan_beginArray : scan (some '[' :: rest) = .beginArray :: scan rest :=
  scan_of_next rfl rfl

/-- So is its end. -/
@[simp] theorem scan_endArray : scan (some ']' :: rest) = .endArray :: scan rest :=
  scan_of_next rfl rfl

/-- So is the start of an object. -/
@[simp] theorem scan_beginObject : scan (some '\x7b' :: rest) = .beginObject :: scan rest :=
  scan_of_next rfl rfl

/-- So is its end. -/
@[simp] theorem scan_endObject : scan (some '\x7d' :: rest) = .endObject :: scan rest :=
  scan_of_next rfl rfl

/-- A text between quotes is scanned as the text. -/
theorem scan_spellText (s : String) :
    scan ((spellText s).map some ++ rest) = .text (some s) :: scan rest :=
  scan_of_next rfl (next_spellText s rest)

/-- A token that begins with a sign or a digit is a literal. -/
theorem next_of_numeric {c : Char} (hc : c = '-' ∨ c.isDigit = true) (rest : List Mark) :
    next (some c :: rest) =
      (Literal.scan (some c :: rest)).map fun (l, tail) => (.number l.number?, tail) := by
  unfold next
  split
  case h_11 => rfl
  all_goals
    rename_i heq
    cases heq
    exact absurd hc (by decide)

/-- A sign or a digit is no gap. -/
theorem isGap_of_numeric {c : Char} (hc : c = '-' ∨ c.isDigit = true) :
    isGap (some c) = false := by
  cases hgap : isGap (some c) with
  | false => rfl
  | true =>
    have hspace : c = ' ' ∨ c = '\t' ∨ c = '\n' ∨ c = '\r' := by
      simpa [isGap, isSpace, or_assoc] using hgap
    rcases hspace with rfl | rfl | rfl | rfl <;> exact absurd hc (by decide)

/-- An integer begins with a sign or a digit. -/
theorem numeric_toString (n : ℤ) :
    ∃ c cs, (toString n).toList = c :: cs ∧ (c = '-' ∨ c.isDigit = true) := by
  rw [Literal.toList_toString]
  by_cases hn : n < 0
  · exact ⟨'-', _, by rw [if_pos hn]; rfl, Or.inl rfl⟩
  · obtain ⟨c, cs, hcs⟩ :=
      List.exists_cons_of_ne_nil (Nat.toDigits_ne_nil (b := 10) (n := n.natAbs))
    refine ⟨c, cs, by rw [if_neg hn, hcs]; rfl, Or.inr ?_⟩
    exact Nat.isDigit_of_mem_toDigits (by omega) (by omega) (hcs ▸ List.mem_cons_self)

/-- An integer of 64 bits is scanned as the integer. -/
theorem scan_integer {n : ℤ} (hlow : -(Nat.pow 2 63 : ℤ) ≤ n) (hhigh : n ≤ Literal.maxWord)
    (hrest : Delimits rest) :
    scan ((toString n).toList.map some ++ rest) = .number (some (.int n)) :: scan rest := by
  obtain ⟨c, cs, hcs, hc⟩ := numeric_toString n
  have hliteral := Literal.scan_toString n hrest
  rw [hcs, List.map_cons, List.cons_append] at hliteral ⊢
  apply scan_of_next (isGap_of_numeric hc)
  rw [next_of_numeric hc, hliteral, Option.map_some]
  simp only [Literal.number?_ofInt hlow hhigh]

end Token

end FreshKeys.Json
