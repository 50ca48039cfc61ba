import FreshKeys.Proofs.Text.Segments
import FreshKeys.Store.Url
import Mathlib.Data.List.Infix

/-!
# Percent signs in paths

A percent sign with two digits in base sixteen after it is a code for a byte. Decoding shortens a
text by its codes and leaves alone a text without any. What is encoded for a path is decoded to what
was there: codes are put in for other characters only, and no code comes about where characters meet.
-/

namespace FreshKeys.Store

open Text (utf8)

namespace Host

/-- Whether a text starts with a code. -/
def startsCoded : List Char → Bool
  | '%' :: high :: low :: _ => (hexValue? high).isSome && (hexValue? low).isSome
  | _ => false

/-- There is no code in a text. -/
def Uncoded (s : List Char) : Prop := ∀ rest ∈ s.tails, startsCoded rest = false

/-- A text has finitely many ends to look at. -/
instance (s : List Char) : Decidable (Uncoded s) :=
  inferInstanceAs (Decidable (∀ rest ∈ s.tails, startsCoded rest = false))

/-- A text is without codes if none starts it and none is in the rest. -/
theorem uncoded_cons {c : Char} {s : List Char} :
    Uncoded (c :: s) ↔ startsCoded (c :: s) = false ∧ Uncoded s := by
  simp [Uncoded]

/-- The empty text is without codes. -/
theorem uncoded_nil : Uncoded [] := by simp [Uncoded, startsCoded]

/-- A text that starts with a code is a percent sign, two digits and a rest. -/
theorem startsCoded_eq_true_iff {s : List Char} : startsCoded s = true ↔
    ∃ high low rest m n, s = '%' :: high :: low :: rest ∧
      hexValue? high = some m ∧ hexValue? low = some n := by
  unfold startsCoded
  split
  · rename_i high low rest
    simp only [Bool.and_eq_true, Option.isSome_iff_exists]
    constructor
    · rintro ⟨⟨m, hhigh⟩, n, hlow⟩
      exact ⟨high, low, rest, m, n, rfl, hhigh, hlow⟩
    · rintro ⟨_, _, _, m, n, heq, hhigh, hlow⟩
      cases heq
      exact ⟨⟨m, hhigh⟩, n, hlow⟩
  · rename_i hother
    refine iff_of_false nofun ?_
    rintro ⟨high, low, rest, -, -, rfl, -, -⟩
    exact hother high low rest rfl

/-- A text is empty, starts with a code or starts with another character. -/
theorem coded_induction {P : List Char → Prop} (nil : P [])
    (code : ∀ {high low m n} rest, hexValue? high = some m → hexValue? low = some n → P rest →
      P ('%' :: high :: low :: rest))
    (other : ∀ {c} rest, startsCoded (c :: rest) = false → P rest → P (c :: rest)) (s : List Char) :
    P s := by
  induction s using decodePercent.induct with
  | case1 high low rest m n hlow hhigh ih => exact code rest hhigh hlow ih
  | case2 high low rest hdigits ih =>
    refine other _ (Bool.eq_false_iff.mpr fun hcoded => ?_) ih
    obtain ⟨_, _, _, m, n, heq, hhigh, hlow⟩ := startsCoded_eq_true_iff.mp hcoded
    cases heq
    exact hdigits m n hhigh hlow
  | case3 c rest hshort ih =>
    refine other _ (Bool.eq_false_iff.mpr fun hcoded => ?_) ih
    obtain ⟨high, low, rest', _, _, heq, -, -⟩ := startsCoded_eq_true_iff.mp hcoded
    exact hshort high low rest' (List.cons.inj heq).1 (List.cons.inj heq).2
  | case4 => exact nil

/-- Bytes are listed from the first to the last. -/
theorem toList_loop (bytes : ByteArray) (i : Nat) (acc : List UInt8) :
    ByteArray.toList.loop bytes i acc = acc.reverse ++ bytes.data.toList.drop i := by
  induction i, acc using ByteArray.toList.loop.induct bytes with
  | case1 i acc hi ih =>
    have hdrop : bytes.data.toList.drop i = bytes.data[i] :: bytes.data.toList.drop (i + 1) := by
      rw [List.drop_eq_getElem_cons (by simpa using hi)]
      rfl
    have hget : bytes.get! i = bytes.data[i] := getElem!_pos bytes.data i hi
    rw [ByteArray.toList.loop, if_pos hi, ih, hdrop, hget, List.reverse_cons, List.append_assoc,
      List.singleton_append]
  | case2 i acc hi =>
    rw [ByteArray.toList.loop, if_neg hi, List.drop_of_length_le (by simpa using hi),
      List.append_nil]

/-- The bytes of a character as a text are those of its encoding. -/
theorem toList_toUTF8_singleton (c : Char) :
    (String.singleton c).toUTF8.toList = String.utf8EncodeChar c := by
  have hbytes : (String.singleton c).toUTF8 = (String.utf8EncodeChar c).toByteArray := by
    have hsingleton : String.singleton c = String.ofList [c] :=
      String.toList_inj.mp (by rw [String.toList_singleton, String.toList_ofList])
    rw [hsingleton]
    exact String.toByteArray_ofList.trans List.utf8Encode_singleton
  rw [hbytes, ByteArray.toList, toList_loop, List.data_toByteArray]
  rfl

/-- A code is decoded to its byte. -/
theorem decodePercent_coded {high low : Char} {m n : Nat} (hhigh : hexValue? high = some m)
    (hlow : hexValue? low = some n) (rest : List Char) :
    decodePercent ('%' :: high :: low :: rest) = UInt8.ofNat (m * 16 + n) :: decodePercent rest := by
  simp only [decodePercent, hhigh, hlow]

/-- What is no code is decoded to its own bytes. -/
theorem decodePercent_other {c : Char} {rest : List Char} (h : startsCoded (c :: rest) = false) :
    decodePercent (c :: rest) = String.utf8EncodeChar c ++ decodePercent rest := by
  by_cases hlong : ∃ high low rest', c = '%' ∧ rest = high :: low :: rest'
  · obtain ⟨high, low, rest', rfl, rfl⟩ := hlong
    rw [decodePercent.eq_1]
    split
    · rename_i hhigh hlow
      simp [startsCoded, hhigh, hlow] at h
    · rfl
  · rw [← toList_toUTF8_singleton]
    exact decodePercent.eq_2 c rest fun high low rest' hc hrest =>
      hlong ⟨high, low, rest', hc, hrest⟩

/-- Something comes of every text that is not empty. -/
theorem length_decodePercent_pos {s : List Char} (h : s ≠ []) : 0 < (decodePercent s).length := by
  induction s using coded_induction with
  | nil => exact absurd rfl h
  | code rest hhigh hlow _ =>
    rw [decodePercent_coded hhigh hlow, List.length_cons]
    omega
  | @other c rest hother _ =>
    have hbyte := List.length_pos_iff.mpr (String.utf8EncodeChar_ne_nil (c := c))
    rw [decodePercent_other hother, List.length_append]
    omega

/-- Decoding never makes a text longer, and shorter by every code in it. -/
theorem length_decodePercent_le (s : List Char) :
    (decodePercent s).length ≤ (utf8 s).length ∧
      ((decodePercent s).length = (utf8 s).length → Uncoded s) := by
  induction s using coded_induction with
  | nil => exact ⟨Nat.le_refl _, fun _ => uncoded_nil⟩
  | @code high low _ _ rest hhigh hlow ih =>
    have hlonger : (utf8 rest).length + 2 ≤ (utf8 ('%' :: high :: low :: rest)).length := by
      have hhigh := List.length_pos_iff.mpr (String.utf8EncodeChar_ne_nil (c := high))
      have hlow := List.length_pos_iff.mpr (String.utf8EncodeChar_ne_nil (c := low))
      simp only [Text.utf8_cons, List.length_append]
      omega
    rw [decodePercent_coded hhigh hlow, List.length_cons]
    exact ⟨by omega, fun h => by omega⟩
  | other rest huncoded ih =>
    rw [decodePercent_other huncoded, uncoded_cons]
    simp only [Text.utf8_cons, List.length_append]
    exact ⟨by omega, fun h => ⟨huncoded, ih.2 (by omega)⟩⟩

/-- A text without codes is decoded to its own bytes. -/
theorem decodePercent_of_uncoded {s : List Char} (h : Uncoded s) : decodePercent s = utf8 s := by
  induction s with
  | nil => rfl
  | cons c s ih =>
    obtain ⟨hstart, hrest⟩ := uncoded_cons.mp h
    rw [decodePercent_other hstart, ih hrest, Text.utf8_cons]

/-- The digits of a byte that is encoded have their values. -/
theorem hexValue?_digitChar {n : Nat} (h : n < 16) :
    hexValue? (Nat.digitChar n).toUpper = some n := by
  have hdigits : ∀ n < 16, hexValue? (Nat.digitChar n).toUpper = some n := by decide
  exact hdigits n h

/-- The value of a digit by its number in ASCII. -/
theorem hexValue?_eq (c : Char) : hexValue? c =
    if 48 ≤ c.toNat ∧ c.toNat ≤ 57 then some (c.toNat - 48)
    else if 97 ≤ c.toNat ∧ c.toNat ≤ 102 then some (c.toNat - 97 + 10)
    else if 65 ≤ c.toNat ∧ c.toNat ≤ 70 then some (c.toNat - 65 + 10)
    else none := by
  simp only [hexValue?, Char.le_def, UInt32.le_iff_toNat_le]
  rfl

/-- A digit is a character that a path can hold as it is. -/
theorem isKept_of_hexValue? {c : Char} {n : Nat} (h : hexValue? c = some n) :
    (c.toNat < 0x20 || 0x7F ≤ c.toNat || Url.isCodedInPath c) = false := by
  have hrange : 48 ≤ c.toNat ∧ c.toNat ≤ 102 := by
    rw [hexValue?_eq] at h
    grind
  have hnone : " \"#<>?^`\x7b\x7d".toList.all (fun d => (hexValue? d).isNone) = true := by decide
  have hpath : Url.isCodedInPath c = false := by
    refine Bool.eq_false_iff.mpr fun hcoded => ?_
    have hc := List.all_eq_true.mp hnone c (List.contains_iff_mem.mp hcoded)
    rw [h] at hc
    cases hc
  simp only [hpath, Bool.or_false, Bool.or_eq_false_iff, decide_eq_false_iff_not]
  omega

/-- Lower case changes the letters from `A` to `Z` only. -/
theorem toLower_cases (c : Char) :
    (65 ≤ c.toNat ∧ c.toNat ≤ 90 ∧ c.toLower.toNat = c.toNat + 32) ∨ c.toLower = c := by
  unfold Char.toLower
  split
  · rename_i hupper
    have hbounds : 65 ≤ c.val.toNat ∧ c.val.toNat ≤ 90 := by
      simpa [UInt32.le_iff_toNat_le] using hupper
    refine .inl ⟨hbounds.1, hbounds.2, ?_⟩
    simp only [Char.toNat, UInt32.toNat_add]
    have hshift : ('a'.val - 'A'.val).toNat = 32 := rfl
    omega
  · exact .inr rfl

/-- Other characters come of themselves only. -/
theorem eq_of_toLower {c d : Char} (h : c.toLower = d) (hd : d.toNat < 97) : c = d := by
  rcases toLower_cases c with ⟨hlow, _, hshift⟩ | hsame
  · rw [h] at hshift
    omega
  · exact hsame.symm.trans h

/-- A digit has one value in upper and lower case. -/
theorem hexValue?_toLower (c : Char) : hexValue? c.toLower = hexValue? c := by
  rcases toLower_cases c with ⟨hlow, hhigh, hshift⟩ | hsame
  · rw [hexValue?_eq, hexValue?_eq, hshift]
    grind
  · rw [hsame]

/-- A code stays one in lower case, and no code comes about. -/
theorem startsCoded_toLower (s : List Char) : startsCoded (s.map Char.toLower) = startsCoded s := by
  have hcons : ∀ a high low rest, startsCoded (a :: high :: low :: rest) =
      (a == '%' && ((hexValue? high).isSome && (hexValue? low).isSome)) := by
    intro a high low rest
    by_cases ha : a = '%'
    · rw [ha]
      rfl
    · simp [startsCoded, ha]
  have hpercent : ∀ a : Char, (a.toLower == '%') = (a == '%') := by
    intro a
    rw [Bool.eq_iff_iff, beq_iff_eq, beq_iff_eq]
    refine ⟨fun h => eq_of_toLower h (by decide), ?_⟩
    rintro rfl
    rfl
  match s with
  | [] | [_] | [_, _] => simp [startsCoded]
  | a :: high :: low :: rest =>
    simp only [List.map_cons, hcons, hpercent, hexValue?_toLower]

/-- The case of letters makes and breaks no code. -/
theorem uncoded_toLower (s : List Char) : Uncoded (s.map Char.toLower) ↔ Uncoded s := by
  induction s with
  | nil => rfl
  | cons c s ih =>
    rw [List.map_cons, uncoded_cons, uncoded_cons, ih, ← List.map_cons, startsCoded_toLower]

end Host

namespace Url

open Host

/-- Encoding what a path cannot hold, and decoding it again. -/
theorem decodePercent_encodeByte (b : UInt8) (rest : List Char) :
    decodePercent (encodeByte b ++ rest) = b :: decodePercent rest := by
  have hb := b.toNat_lt
  have hdigits := decodePercent_coded (hexValue?_digitChar (n := b.toNat / 16) (by omega))
    (hexValue?_digitChar (n := b.toNat % 16) (by omega)) rest
  rw [Nat.div_add_mod' b.toNat 16, UInt8.ofNat_toNat] at hdigits
  exact hdigits

/-- Bytes that were encoded are decoded again. -/
theorem decodePercent_encodeBytes (bytes : List UInt8) (rest : List Char) :
    decodePercent (bytes.flatMap encodeByte ++ rest) = bytes ++ decodePercent rest := by
  induction bytes with
  | nil => rfl
  | cons b bytes ih =>
    rw [List.flatMap_cons, List.append_assoc, decodePercent_encodeByte, ih, List.cons_append]

/-- A character of the class is encoded byte by byte. -/
theorem encode_cons_coded {p : Char → Bool} {c : Char}
    (h : (c.toNat < 0x20 || 0x7F ≤ c.toNat || p c) = true) (s : List Char) :
    encode p (c :: s) = (String.utf8EncodeChar c).flatMap encodeByte ++ encode p s := by
  rw [encode, List.flatMap_cons, if_pos h, toList_toUTF8_singleton, encode]

/-- Any other character is kept. -/
theorem encode_cons_kept {p : Char → Bool} {c : Char}
    (h : (c.toNat < 0x20 || 0x7F ≤ c.toNat || p c) = false) (s : List Char) :
    encode p (c :: s) = c :: encode p s := by
  rw [encode, List.flatMap_cons, h, encode]
  rfl

/-- A digit at the start of an encoded path was there before. -/
theorem digit_of_encode {s rest : List Char} {c : Char} {n : Nat} (hdigit : hexValue? c = some n)
    (h : encode isCodedInPath s = c :: rest) :
    ∃ t, s = c :: t ∧ rest = encode isCodedInPath t := by
  cases s with
  | nil => cases h
  | cons d t =>
    cases hd : d.toNat < 0x20 || 0x7F ≤ d.toNat || isCodedInPath d with
    | true =>
      -- What is encoded starts with a percent sign, which is no digit.
      obtain ⟨b, bytes, hbytes⟩ :=
        List.exists_cons_of_ne_nil (String.utf8EncodeChar_ne_nil (c := d))
      rw [encode_cons_coded hd, hbytes] at h
      obtain rfl : '%' = c := (List.cons.inj h).1
      cases hdigit
    | false =>
      rw [encode_cons_kept hd] at h
      exact ⟨t, by rw [(List.cons.inj h).1], (List.cons.inj h).2.symm⟩

/-- Encoding a path puts no codes in that would be decoded to something else. -/
theorem decodePercent_encode (s : List Char) :
    decodePercent (encode isCodedInPath s) = decodePercent s := by
  induction s using coded_induction with
  | nil => rfl
  | code rest hhigh hlow ih =>
    rw [encode_cons_kept (by decide), encode_cons_kept (isKept_of_hexValue? hhigh),
      encode_cons_kept (isKept_of_hexValue? hlow), decodePercent_coded hhigh hlow,
      decodePercent_coded hhigh hlow, ih]
  | @other c rest hother ih =>
    rw [decodePercent_other hother]
    cases hc : c.toNat < 0x20 || 0x7F ≤ c.toNat || isCodedInPath c with
    | true => rw [encode_cons_coded hc, decodePercent_encodeBytes, ih]
    | false =>
      have hkept : startsCoded (c :: encode isCodedInPath rest) = false := by
        refine Bool.eq_false_iff.mpr fun hcoded => ?_
        obtain ⟨high, low, rest', m, n, heq, hhigh, hlow⟩ := startsCoded_eq_true_iff.mp hcoded
        obtain ⟨rfl, hrest⟩ := List.cons.inj heq
        obtain ⟨t, rfl, ht⟩ := digit_of_encode hhigh hrest
        obtain ⟨_, rfl, -⟩ := digit_of_encode hlow ht.symm
        simp [startsCoded, hhigh, hlow] at hother
      rw [encode_cons_kept hc, decodePercent_other hkept, ih]

end Url

end FreshKeys.Store
