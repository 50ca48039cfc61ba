import FreshKeys.Proofs.Store.Percent
import FreshKeys.Proofs.Text.Trimming

/-!
# What reading an address does to a path

A path loses the controls and spaces at its end, tabs and line breaks anywhere, and everything from
the first question mark or number sign on. Its segments are then put in order, which leaves out every
`.`, and every `..` together with the segment before it. Each of these steps leaves bytes out, so a
path that has all its bytes after them went through none.
-/

namespace FreshKeys.Store.Url

open Host (decodePercent Uncoded startsCoded hexValue?)
open Text (isSlash EndsWithout pieces utf8 weigh)

/-- Whether a segment says where to go, and is no name. -/
def isDots (segment : List Char) : Bool :=
  upSpellings.contains (segment.map Char.toLower) || sameSpellings.contains (segment.map Char.toLower)

/-- A segment of dots is left out, and at most one segment before it; at the end an empty one takes
its place. -/
theorem resolve_cons_dots {segment : List Char} (h : isDots segment = true)
    (done rest : List (List Char)) :
    ∃ kept, (kept = done ∨ kept = done.tail) ∧
      resolve done (segment :: rest) = resolve (if rest.isEmpty then [] :: kept else kept) rest := by
  rw [isDots] at h
  refine ⟨if upSpellings.contains (segment.map Char.toLower) then done.tail else done, ?_, ?_⟩
  · split
    · exact .inr rfl
    · exact .inl rfl
  · simp only [resolve, h, if_true]

/-- A segment that is no dots stays. -/
theorem resolve_cons_name {segment : List Char} (h : isDots segment = false)
    (done rest : List (List Char)) :
    resolve done (segment :: rest) = resolve (segment :: done) rest := by
  rw [isDots] at h
  obtain ⟨hup, hsame⟩ := Bool.or_eq_false_iff.mp h
  simp only [resolve, hup, hsame, Bool.or_false, Bool.false_eq_true, if_false]

/-- Names stay as they are, in their order. -/
theorem resolve_of_names {segments : List (List Char)} (h : ∀ s ∈ segments, isDots s = false)
    (done : List (List Char)) : resolve done segments = done.reverse ++ segments := by
  induction segments generalizing done with
  | nil => simp [resolve]
  | cons segment segments ih =>
    rw [resolve_cons_name (h segment List.mem_cons_self),
      ih fun s hs => h s (List.mem_cons_of_mem _ hs), List.reverse_cons, List.append_assoc,
      List.singleton_append]

/-- Putting segments in order makes them lighter, unless all of them are names. -/
theorem weigh_resolve_le {w : List Char → Nat} (hempty : w [] = 0)
    (hdots : ∀ s, isDots s = true → 0 < w s) (done segments : List (List Char)) :
    weigh w (resolve done segments) ≤ weigh w done + weigh w segments ∧
      (weigh w (resolve done segments) = weigh w done + weigh w segments →
        ∀ s ∈ segments, isDots s = false) := by
  induction segments generalizing done with
  | nil => simp [resolve, Text.weigh_reverse]
  | cons segment segments ih =>
    rw [Text.weigh_cons]
    cases hsegment : isDots segment with
    | true =>
      obtain ⟨kept, hkept, hresolve⟩ := resolve_cons_dots hsegment done segments
      have hlighter : weigh w kept ≤ weigh w done := by
        rcases hkept with rfl | rfl
        · exact Nat.le_refl _
        · cases done <;> simp
      have hpos := hdots segment hsegment
      have hrest : weigh w (resolve done (segment :: segments)) <
          weigh w done + (w segment + 1 + weigh w segments) := by
        rw [hresolve]
        refine Nat.lt_of_le_of_lt (ih _).1 ?_
        split
        · rw [Text.weigh_cons, hempty]
          omega
        · omega
      exact ⟨hrest.le, fun hequal => absurd hequal hrest.ne⟩
    | false =>
      have hstep := ih (segment :: done)
      rw [Text.weigh_cons] at hstep
      rw [resolve_cons_name hsegment, List.forall_mem_cons]
      exact ⟨by omega, fun hequal => ⟨hsegment, hstep.2 (by omega)⟩⟩

/-- Without codes there are two ways to write dots. -/
theorem isDots_iff_of_uncoded {s : List Char} (h : Uncoded s) :
    isDots s = true ↔ s = ['.'] ∨ s = ['.', '.'] := by
  constructor
  · intro hdots
    have hspelled : s.map Char.toLower ∈ upSpellings ++ sameSpellings := by
      simpa [isDots] using hdots
    have huncoded : ∀ t ∈ upSpellings ++ sameSpellings, Uncoded t → t = ['.'] ∨ t = ['.', '.'] := by
      decide
    have hsame : ∀ c : Char, c.toLower = '.' → c = '.' := fun c hc =>
      Host.eq_of_toLower hc (by decide)
    rcases huncoded _ hspelled ((Host.uncoded_toLower s).mpr h) with hone | htwo
    · obtain ⟨c, rfl, hc⟩ := List.map_eq_singleton_iff.mp hone
      exact .inl (by rw [hsame c hc])
    · obtain ⟨c, rest, rfl, hc, hrest⟩ := List.map_eq_cons_iff.mp htwo
      obtain ⟨d, rfl, hd⟩ := List.map_eq_singleton_iff.mp hrest
      exact .inr (by rw [hsame c hc, hsame d hd])
  · rintro (rfl | rfl) <;> decide

/-- What is left of a path when an address that ends in it is read. -/
def surviving (path : List Char) : List Char :=
  (Text.dropEnd isEdge path).filter fun c => !isBreak c

/-- What is left of it before a query or a fragment. -/
def written (path : List Char) : List Char := (surviving path).takeWhile fun c => !endsPath c

/-- What is left of a path adds nothing to it. -/
theorem surviving_sublist (path : List Char) : (surviving path).Sublist path :=
  List.filter_sublist.trans (Text.dropEnd_opening isEdge path).sublist

/-- Nor does what is left before a query or a fragment. -/
theorem written_sublist (path : List Char) : (written path).Sublist path :=
  (List.takeWhile_sublist _).trans (surviving_sublist path)

/-- All of a path survives exactly if nothing falls away at its end and it holds no breaks. -/
theorem surviving_eq_self_iff {path : List Char} : surviving path = path ↔
    EndsWithout isEdge path ∧ ∀ c ∈ path, isBreak c = false := by
  rw [surviving, Text.cut_cut_eq_self_iff (Text.dropEnd_opening isEdge path).sublist
    fun t => List.filter_sublist, Text.dropEnd_eq_self_iff]
  simp

/-- All of a path is left exactly when it holds nothing that falls away. -/
theorem written_eq_self_iff {path : List Char} : written path = path ↔
    (EndsWithout isEdge path ∧ ∀ c ∈ path, isBreak c = false) ∧ ∀ c ∈ path, endsPath c = false := by
  rw [written, Text.cut_cut_eq_self_iff (surviving_sublist path)
    fun t => List.takeWhile_sublist _, surviving_eq_self_iff]
  simp

end FreshKeys.Store.Url
