import FreshKeys.Files
import FreshKeys.Proofs.Text.Segments

/-!
# Files are read by their names

A path that goes down from the working directory, from a directory above it or from the root comes
to the file of that name, if no file stands on the way. Its text is read if its bytes are those of a
text.
-/

namespace FreshKeys.Files

open Text

variable {files : Files} {base : Position} {names : List (List Char)} {path : String}
  {bytes : ByteArray}

/-- A text is read from a file that holds its bytes. -/
theorem readText_of_readBytes {text : String} (h : files.readBytes path = .ok text.toUTF8) :
    files.readText path = .ok text := by
  have hdecode : String.fromUTF8? text.toUTF8 = some text := dif_pos text.isValidUTF8
  simp only [readText, h, bind, Except.bind, hdecode]

/-- A segment that goes down to what it names. -/
structure IsName (segment : List Char) : Prop where
  nonempty : segment ≠ []
  ne_here : segment ≠ here
  ne_above : segment ≠ above
  short : (String.ofList segment).utf8ByteSize ≤ maxName

/-- Where a path can start to go down: at the root, at the working directory or above it. -/
inductive IsBase : Position → Prop where
  | root : IsBase root
  | above (levels : Nat) : IsBase (List.replicate levels above)

/-- A name leads to what is under it. -/
theorem step_of_isName {position : Position} {segment : List Char} {entry : FileEntry}
    (hname : IsName segment) (hlook : files.look (position ++ [segment]) = some entry) :
    files.step ⟨position, .directory⟩ segment = .ok ⟨position ++ [segment], entry⟩ := by
  have hshort : ¬ maxName < (String.ofList segment).utf8ByteSize := Nat.not_lt.mpr hname.short
  simp [step, hname.nonempty, hname.ne_here, hname.ne_above, hshort, hlook]

/-- Names lead through directories to the file at their end. -/
theorem foldlM_step_names {position : Position} (hnonempty : names ≠ [])
    (hnames : ∀ segment ∈ names, IsName segment)
    (hdirectories : ∀ before after, names = before ++ after → before ≠ [] → after ≠ [] →
      files.look (position ++ before) = some .directory)
    (hfile : files.look (position ++ names) = some (.file bytes)) :
    names.foldlM files.step ⟨position, .directory⟩ = .ok ⟨position ++ names, .file bytes⟩ := by
  induction names generalizing position with
  | nil => exact absurd rfl hnonempty
  | cons segment rest ih =>
    obtain ⟨hname, hrest⟩ := List.forall_mem_cons.mp hnames
    rw [List.foldlM_cons]
    cases rest with
    | nil =>
      rw [step_of_isName hname hfile]
      rfl
    | cons next more =>
      have hdown := hdirectories [segment] (next :: more) rfl (by simp) (by simp)
      rw [step_of_isName hname hdown]
      have hsplit : position ++ segment :: next :: more =
          position ++ [segment] ++ next :: more := by simp
      rw [hsplit] at hfile ⊢
      refine ih (by simp) hrest ?_ hfile
      intro before after hbefore hne hafter
      have hlook := hdirectories (segment :: before) after (by rw [hbefore]; rfl) (by simp) hafter
      rwa [List.append_assoc, List.singleton_append]

/-- Each `..` in front leads one directory further up. -/
theorem foldlM_step_above (levels reached : Nat) :
    (List.replicate levels above).foldlM files.step ⟨List.replicate reached above, .directory⟩ =
      .ok ⟨List.replicate (reached + levels) above, .directory⟩ := by
  induction levels generalizing reached with
  | zero => rfl
  | succ levels ih =>
    have hroot : List.replicate reached above ≠ root := by
      intro h
      have hmem : [] ∈ List.replicate reached above := h ▸ List.mem_cons_self
      cases List.eq_of_mem_replicate hmem
    have hup : up (List.replicate reached above) = List.replicate (reached + 1) above := by
      simp [up, hroot, isAtOrAbove, List.replicate_succ']
    have hstep : files.step ⟨List.replicate reached above, .directory⟩ above =
        .ok ⟨List.replicate (reached + 1) above, .directory⟩ := by
      rw [← hup]
      rfl
    rw [List.replicate_succ, List.foldlM_cons, hstep]
    have hsum : reached + (levels + 1) = reached + 1 + levels := by omega
    rw [hsum]
    exact ih (reached + 1)

/-- A path starts with a slash exactly if it has one and nothing stands before the first. -/
theorem isAbsolute_iff_of_pieces {first : List Char} {others : List (List Char)}
    (hpieces : pieces isSlash path.toList = first :: others) :
    isAbsolute path = true ↔ first = [] ∧ others ≠ [] := by
  rw [isAbsolute]
  cases htext : path.toList with
  | nil =>
    rw [htext] at hpieces
    simp [← (List.cons.inj hpieces).2]
  | cons c s =>
    rw [htext] at hpieces
    cases hc : isSlash c with
    | true =>
      rw [pieces_separator hc] at hpieces
      obtain ⟨rfl, rfl⟩ := List.cons.inj hpieces
      simpa [pieces_ne_nil, isSlash] using hc
    | false =>
      obtain ⟨_, _, -, hcons⟩ := pieces_other hc s
      rw [hcons] at hpieces
      simpa [isSlash, ← (List.cons.inj hpieces).1] using hc

/-- What names lead down to is neither the root nor at or above the working directory. -/
theorem below_of_isName (hnonempty : names ≠ []) (hnames : ∀ segment ∈ names, IsName segment) :
    (base ++ names == root || isAtOrAbove (base ++ names)) = false := by
  obtain ⟨segment, hsegment⟩ := List.exists_mem_of_ne_nil names hnonempty
  have hmem : segment ∈ base ++ names := List.mem_append_right base hsegment
  have hroot : base ++ names ≠ root := by
    intro h
    exact (hnames segment hsegment).nonempty (List.mem_singleton.mp (by rwa [h] at hmem))
  have hbelow : isAtOrAbove (base ++ names) = false := by
    rw [isAtOrAbove, List.all_eq_false]
    exact ⟨segment, hmem, by simpa using (hnames segment hsegment).ne_above⟩
  rw [hbelow, Bool.or_false]
  exact beq_eq_false_iff_ne.mpr hroot

/-- The pieces in front of the names of a path lead from its start to the base. -/
theorem foldlM_step_base (hbase : IsBase base) (hnonempty : names ≠ [])
    (hnames : ∀ segment ∈ names, IsName segment)
    (hpieces : pieces isSlash path.toList = base ++ names) :
    base.foldlM files.step (start path) = .ok ⟨base, .directory⟩ := by
  obtain ⟨segment, more, rfl⟩ := List.exists_cons_of_ne_nil hnonempty
  have hsegment : segment ≠ [] := (hnames segment List.mem_cons_self).nonempty
  cases hbase with
  | root =>
    have habsolute : isAbsolute path = true :=
      (isAbsolute_iff_of_pieces hpieces).mpr ⟨rfl, List.cons_ne_nil segment more⟩
    rw [start, if_pos habsolute]
    rfl
  | above levels =>
    have hrelative : ¬ isAbsolute path = true := by
      cases levels with
      | zero => exact fun h => hsegment ((isAbsolute_iff_of_pieces hpieces).mp h).1
      | succ levels => exact fun h => nomatch ((isAbsolute_iff_of_pieces hpieces).mp h).1
    rw [start, if_neg hrelative]
    simpa using foldlM_step_above levels 0

/-- A directory is found on the way to a named file, if no file stands there. -/
theorem look_of_before {before after : List (List Char)} {name : String} {entry : FileEntry}
    (hnames : ∀ segment ∈ before, IsName segment) (hbefore : before ≠ [])
    (hentry : (name, entry) ∈ files.entries) (hname : positionOf name = base ++ before ++ after)
    (hfree : ∀ e ∈ files.entries, positionOf e.1 = base ++ before → e.2 = .directory) :
    files.look (base ++ before) = some .directory := by
  have hleads :
      files.entries.any (fun e => (base ++ before).isPrefixOf (positionOf e.1)) = true := by
    rw [List.any_eq_true]
    refine ⟨(name, entry), hentry, List.isPrefixOf_iff_prefix.mpr ?_⟩
    rw [hname]
    exact List.prefix_append (base ++ before) after
  rw [look, below_of_isName hbefore hnames]
  cases hfind : files.entries.find? (fun e => positionOf e.1 == base ++ before) with
  | none => simp only [hleads, if_true, Bool.false_eq_true, if_false]
  | some e =>
    have hposition : positionOf e.1 = base ++ before := by simpa using List.find?_some hfind
    simp only [hfree e (List.mem_of_find?_eq_some hfind) hposition, Bool.false_eq_true, if_false]

/-- A path comes to the file that has its name, if it goes down from the root, from the working
directory or from a directory above it and no file stands on the way. -/
theorem readBytes_of_find {name : String} (hbase : IsBase base) (hnonempty : names ≠ [])
    (hnames : ∀ segment ∈ names, IsName segment)
    (hpieces : pieces isSlash path.toList = base ++ names)
    (hfind : files.entries.find? (fun e => positionOf e.1 == base ++ names) =
      some (name, .file bytes))
    (hfree : ∀ e ∈ files.entries, ∀ after, after ≠ [] →
      positionOf e.1 ++ after = base ++ names → e.2 = .directory)
    (hshort : path.utf8ByteSize ≤ maxPath) (hnul : '\x00' ∉ path.toList) :
    files.readBytes path = .ok bytes := by
  have hname : positionOf name = base ++ names := by simpa using List.find?_some hfind
  have hfile : files.look (base ++ names) = some (.file bytes) := by
    simp only [look, below_of_isName hnonempty hnames, hfind, Bool.false_eq_true, if_false]
  have hwalk : (pieces isSlash path.toList).foldlM files.step (start path) =
      .ok ⟨base ++ names, .file bytes⟩ := by
    rw [hpieces, List.foldlM_append, foldlM_step_base hbase hnonempty hnames hpieces]
    refine foldlM_step_names hnonempty hnames ?_ hfile
    rintro before after rfl hbefore hafter
    refine look_of_before (fun s hs => hnames s (List.mem_append_left after hs)) hbefore
      (List.mem_of_find?_eq_some hfind) (hname.trans (List.append_assoc ..).symm) ?_
    intro e he hposition
    exact hfree e he after hafter (by rw [hposition, List.append_assoc])
  have hbelow : (base ++ names == root || isAtOrAbove (base ++ names)) = false :=
    below_of_isName hnonempty hnames
  have hempty : ¬ path.isEmpty = true := by
    intro h
    rw [String.isEmpty_iff.mp h] at hpieces
    rw [← hpieces] at hbelow
    cases hbelow
  rw [readBytes, if_neg (by simpa using hnul), if_neg hempty, if_neg (Nat.not_lt.mpr hshort), hwalk]
  rfl

/-- A name without slashes is one piece. -/
theorem pieces_of_name {name : String} (hslash : '/' ∉ name.toList) :
    pieces isSlash name.toList = [name.toList] := by
  refine pieces_of_no_separator fun c hc => beq_eq_false_iff_ne.mpr ?_
  rintro rfl
  exact hslash hc

/-- It stands for itself, in the working directory. -/
theorem positionOf_of_isName {name : String} (hname : IsName name.toList)
    (hslash : '/' ∉ name.toList) : positionOf name = [name.toList] := by
  have hpieces := pieces_of_name hslash
  have hrelative : ¬ isAbsolute name = true := fun h =>
    hname.nonempty ((isAbsolute_iff_of_pieces hpieces).mp h).1
  rw [positionOf, if_neg hrelative, hpieces]
  simp [hname.nonempty, hname.ne_here]

/-- The first file of the working directory is read by its name. -/
theorem readBytes_of_name {name : String} {others : List (String × FileEntry)}
    (hname : IsName name.toList) (hslash : '/' ∉ name.toList) (hnul : '\x00' ∉ name.toList)
    (hothers : ∀ e ∈ others, positionOf e.1 ≠ []) :
    (⟨(name, .file bytes) :: others⟩ : Files).readBytes name = .ok bytes := by
  have hposition := positionOf_of_isName hname hslash
  have hshort : name.utf8ByteSize ≤ maxPath := by
    have hbytes := hname.short
    rw [String.ofList_toList] at hbytes
    exact Nat.le_trans hbytes (by decide)
  refine readBytes_of_find (.above 0) (by simp) (by simpa using hname) (pieces_of_name hslash)
    (List.find?_cons_of_pos (by simp [hposition])) ?_ hshort hnul
  -- nothing stands at the working directory itself, which is all there is on the way
  intro e he after hafter heq
  obtain ⟨hnil, -⟩ | ⟨-, hnil⟩ := List.append_eq_singleton_iff.mp heq
  · obtain rfl | he := List.mem_cons.mp he
    · rw [hposition] at hnil
      cases hnil
    · exact absurd hnil (hothers e he)
  · exact absurd hnil hafter

end FreshKeys.Files
