import FreshKeys.Proofs.Shell.Reading

/-!
# Lines that export variables

A line exports a variable when the value stands behind the name as it is. Lines are read as exactly
these variables when every value is plain, and only then. Each word has to take up as many characters
as it says, and a quote, a comment or a line break that is skipped would be one that no word says.
-/

namespace FreshKeys.Shell

/-- A value that is read as it is. -/
structure IsPlain (value : String) : Prop where
  ordinary : ∀ c ∈ value.toList, kind c = .ordinary
  unexpanded : expands (value.toList.map bare) = false

/-- The line that exports a variable, its value as it is. -/
def lineOf (v : String × String) : String := "export " ++ v.1 ++ "=" ++ v.2 ++ "\n"

/-- The lines that export variables. -/
def linesOf (vars : List (String × String)) : String :=
  String.ofList (vars.flatMap fun v => (lineOf v).toList)

/-- The words of a line. -/
def commandOf (v : String × String) : List (List Glyph) :=
  ["export".toList.map bare, (v.1.toList ++ '=' :: v.2.toList).map bare]

/-- The tokens of a line. -/
def tokensOf (v : String × String) : List Token :=
  [.word ("export".toList.map bare), .word ((v.1.toList ++ '=' :: v.2.toList).map bare), .newline]

/-- Characters that a word can start with where they mean nothing. -/
def StartsWord (cs : List Char) : Prop := ∃ c rest, cs = c :: rest ∧ c ≠ '#'

/-- A character that means nothing is not the null character. -/
theorem ne_nul_of_ordinary {c : Char} (h : kind c = .ordinary) : c ≠ '\x00' := by
  rintro rfl
  cases h

/-- The characters of names mean nothing. -/
theorem kind_of_isNameChar {c : Char} (h : isNameChar c = true) : kind c = .ordinary := by
  have hspecials : specials.any isNameChar = false := by decide
  have hspecial : ¬ specials.contains c = true := fun hcontains =>
    List.any_eq_false.mp hspecials c (List.contains_iff_mem.mp hcontains) h
  unfold kind
  split
  case h_8 => rw [if_neg hspecial]
  all_goals cases h

/-- Without a tilde none is expanded. -/
theorem expandsTilde_eq_false {value : List Char} (h : '~' ∉ value) (opens : Bool) :
    expandsTilde opens (value.map bare) = false := by
  induction value generalizing opens with
  | nil => rfl
  | cons c rest ih =>
    have hc : '~' ≠ c := List.ne_of_not_mem_cons h
    simp [expandsTilde, bare, hc.symm, ih (List.not_mem_of_not_mem_cons h)]

/-- Without a bracket there is no class of characters. -/
theorem holdsBrackets_eq_false {value : List Char} (h : '[' ∉ value) :
    holdsBrackets (value.map bare) = false := by
  induction value with
  | nil => rfl
  | cons c rest ih =>
    have hc : '[' ≠ c := List.ne_of_not_mem_cons h
    simp [holdsBrackets, bare, hc.symm, ih (List.not_mem_of_not_mem_cons h)]

/-- A character of the keys that stores hand out. -/
def isKeyChar (c : Char) : Bool := isNameChar c || ['+', '/', '=', '-', '.'].contains c

/-- Keys are plain. -/
theorem isPlain_of_keyChars {value : String} (h : ∀ c ∈ value.toList, isKeyChar c = true) :
    IsPlain value := by
  have hne : ∀ c, isKeyChar c = false → c ∉ value.toList := fun c hc hmem =>
    Bool.false_ne_true (hc.symm.trans (h c hmem))
  constructor
  case ordinary =>
    intro c hc
    have hsigns : ['+', '/', '=', '-', '.'].all (kind · == .ordinary) = true := by decide
    rcases Bool.or_eq_true_iff.mp (h c hc) with hname | hsign
    · exact kind_of_isNameChar hname
    · exact eq_of_beq (List.all_eq_true.mp hsigns c (List.contains_iff_mem.mp hsign))
  case unexpanded =>
    rw [expands, expandsTilde_eq_false (hne '~' rfl), holdsBrackets_eq_false (hne '[' rfl)]
    rfl

namespace Reader

/-- Characters that mean nothing are put to a word. -/
theorem read_ordinary {word : List Glyph} {cs : List Char} (h : ∀ c ∈ cs, kind c = .ordinary)
    (rest : List Char) :
    read ⟨some word, .unquoted⟩ (cs ++ rest) =
      read ⟨some ((cs.map bare).reverse ++ word), .unquoted⟩ rest := by
  induction cs generalizing word with
  | nil => rfl
  | cons c cs ih =>
    obtain ⟨hc, hcs⟩ := List.forall_mem_cons.mp h
    have htake : take ⟨some word, .unquoted⟩ c = some ([], ⟨some (bare c :: word), .unquoted⟩) := by
      simp [take, takeUnquoted, ne_nul_of_ordinary hc, hc, extend]
    simp [read, htake, ih hcs]

/-- A word starts with a character that means nothing, and is no comment. -/
theorem read_start {cs : List Char} (hstart : StartsWord cs) (h : ∀ c ∈ cs, kind c = .ordinary)
    (rest : List Char) :
    start.read (cs ++ rest) = read ⟨some (cs.map bare).reverse, .unquoted⟩ rest := by
  obtain ⟨c, cs, rfl, hnumber⟩ := hstart
  obtain ⟨hc, hcs⟩ := List.forall_mem_cons.mp h
  have htake : start.take c = some ([], ⟨some [bare c], .unquoted⟩) := by
    simp [take, takeUnquoted, start, ne_nul_of_ordinary hc, hc, hnumber, extend]
  rw [List.cons_append, read, htake, Option.bind_some]
  simp [read_ordinary hcs]

/-- A space ends a word. -/
theorem read_space (word : List Glyph) (rest : List Char) :
    read ⟨some word, .unquoted⟩ (' ' :: rest) =
      (start.read rest).map (.word word.reverse :: ·) := rfl

/-- A line break ends a word and a command. -/
theorem read_break (word : List Glyph) (rest : List Char) :
    read ⟨some word, .unquoted⟩ ('\n' :: rest) =
      (start.read rest).map ([.word word.reverse, .newline] ++ ·) := rfl

end Reader

/-- A name is not empty, and holds characters of names only. -/
theorem chars_of_isName {name : List Char} (h : isName name = true) :
    (∀ c ∈ name, isNameChar c = true) ∧ StartsWord name := by
  simp only [isName, Bool.and_eq_true, List.all_eq_true] at h
  obtain ⟨⟨hne, hchars⟩, -⟩ := h
  refine ⟨hchars, ?_⟩
  cases name with
  | nil => cases hne
  | cons c cs =>
    refine ⟨c, cs, rfl, ?_⟩
    rintro rfl
    cases hchars '#' List.mem_cons_self

/-- A line whose characters mean nothing but in its own places is read as its words. -/
theorem read_line {v : String × String} (hname : isName v.1.toList = true)
    (hvalue : ∀ c ∈ v.2.toList, kind c = .ordinary) (rest : List Char) :
    Reader.start.read ((lineOf v).toList ++ rest) =
      (Reader.start.read rest).map (tokensOf v ++ ·) := by
  obtain ⟨hchars, c, cs, hcons, hnumber⟩ := chars_of_isName hname
  have hexport : ∀ d ∈ "export".toList, kind d = .ordinary := by
    have hall : "export".toList.all (kind · == .ordinary) = true := by decide
    exact fun d hd => eq_of_beq (List.all_eq_true.mp hall d hd)
  have hoperand : ∀ d ∈ v.1.toList ++ '=' :: v.2.toList, kind d = .ordinary := by
    simp only [List.mem_append, List.mem_cons]
    rintro d (hd | rfl | hd)
    · exact kind_of_isNameChar (hchars d hd)
    · rfl
    · exact hvalue d hd
  have hword : StartsWord "export".toList := ⟨'e', "xport".toList, rfl, by decide⟩
  have hstart : StartsWord (v.1.toList ++ '=' :: v.2.toList) :=
    ⟨c, cs ++ '=' :: v.2.toList, by rw [hcons, List.cons_append], hnumber⟩
  have hline : (lineOf v).toList ++ rest =
      "export".toList ++ ' ' :: ((v.1.toList ++ '=' :: v.2.toList) ++ '\n' :: rest) := by
    simp [lineOf]
  rw [hline, Reader.read_start hword hexport, Reader.read_space,
    Reader.read_start hstart hoperand, Reader.read_break, List.reverse_reverse,
    List.reverse_reverse, Option.map_map]
  rfl

/-- The words of a line are a command. -/
theorem commandsFrom_line (v : String × String) (tokens : List Token) :
    commandsFrom [] (tokensOf v ++ tokens) = (commandsFrom [] tokens).map (commandOf v :: ·) := rfl

/-- The glyphs of a text spell it. -/
theorem textOf_bare (text : String) : textOf (text.toList.map bare) = text := by
  simp [textOf, bare, Function.comp_def]

/-- The command of a line exports the variable. -/
theorem export?_commandOf {v : String × String} (hname : isName v.1.toList = true)
    (hvalue : expands (v.2.toList.map bare) = false) : export? (commandOf v) = some v := by
  obtain ⟨hchars, -⟩ := chars_of_isName hname
  have hequals : ∀ g ∈ v.1.toList.map bare, (g.char != '=') = true := by
    intro g hg
    obtain ⟨c, hc, rfl⟩ := List.mem_map.mp hg
    refine bne_iff_ne.mpr ?_
    rintro rfl
    cases hchars _ hc
  have htake : ((v.1.toList ++ '=' :: v.2.toList).map bare).takeWhile (fun g => g.char != '=') =
      v.1.toList.map bare := by
    rw [List.map_append, List.takeWhile_append_of_pos hequals]
    simp [bare]
  have hdrop : ((v.1.toList ++ '=' :: v.2.toList).map bare).dropWhile (fun g => g.char != '=') =
      bare '=' :: v.2.toList.map bare := by
    rw [List.map_append, List.dropWhile_append_of_pos hequals]
    simp [bare]
  have hchar : (v.1.toList.map bare).map Glyph.char = v.1.toList := by
    simp [bare, Function.comp_def]
  have hassignment : assignment? ((v.1.toList ++ '=' :: v.2.toList).map bare) = some v := by
    simp only [assignment?, htake, hdrop, hchar, hname, hvalue, textOf_bare]
    rfl
  simp only [export?, commandOf, textOf_bare, if_true, hassignment]

/-- Lines of plain values are read as the tokens of each line. -/
theorem read_linesOf {vars : List (String × String)}
    (hnames : ∀ v ∈ vars, isName v.1.toList = true) (hvalues : ∀ v ∈ vars, IsPlain v.2) :
    Reader.start.read (linesOf vars).toList = some (vars.flatMap tokensOf) := by
  rw [linesOf, String.toList_ofList]
  induction vars with
  | nil => rfl
  | cons v vars ih =>
    obtain ⟨hname, hnames⟩ := List.forall_mem_cons.mp hnames
    obtain ⟨hvalue, hvalues⟩ := List.forall_mem_cons.mp hvalues
    rw [List.flatMap_cons, read_line hname hvalue.ordinary, ih hnames hvalues]
    rfl

/-- The tokens of lines make one command for each line. -/
theorem commandsFrom_lines (vars : List (String × String)) :
    commandsFrom [] (vars.flatMap tokensOf) = some (vars.map commandOf) := by
  induction vars with
  | nil => rfl
  | cons v vars ih =>
    rw [List.flatMap_cons, commandsFrom_line, ih]
    rfl

/-- The commands of lines export the variables. -/
theorem mapM_commandOf {vars : List (String × String)}
    (hnames : ∀ v ∈ vars, isName v.1.toList = true) (hvalues : ∀ v ∈ vars, IsPlain v.2) :
    (vars.map commandOf).mapM export? = some vars := by
  induction vars with
  | nil => rfl
  | cons v vars ih =>
    obtain ⟨hname, hnames⟩ := List.forall_mem_cons.mp hnames
    obtain ⟨hvalue, hvalues⟩ := List.forall_mem_cons.mp hvalues
    rw [List.map_cons, List.mapM_cons, export?_commandOf hname hvalue.unexpanded,
      ih hnames hvalues]
    rfl

/-- Lines of plain values are read as the variables. -/
theorem exports?_linesOf {vars : List (String × String)}
    (hnames : ∀ v ∈ vars, isName v.1.toList = true) (hvalues : ∀ v ∈ vars, IsPlain v.2) :
    exports? (linesOf vars) = some vars := by
  rw [exports?, commands?, read_linesOf hnames hvalues, Option.bind_some, commandsFrom_lines,
    Option.bind_some, mapM_commandOf hnames hvalues]

/-- A command that exports a variable has two words: the name of the command, and the name of the
variable with its value. -/
theorem export?_eq_some {command : List (List Glyph)} {v : String × String}
    (h : export? command = some v) :
    ∃ word name g value, command = [word, name ++ g :: value] ∧ textOf word = "export" ∧
      textOf name = v.1 ∧ textOf value = v.2 ∧ expands value = false := by
  unfold export? at h
  split at h
  case h_2 => cases h
  case h_1 word operand =>
    split at h
    case isFalse => cases h
    case isTrue hword =>
      simp only [assignment?] at h
      split at h
      · cases h
      · rename_i g value hdrop
        split at h
        case isFalse => cases h
        case isTrue hchecks =>
          cases h
          have hoperand := List.takeWhile_append_dropWhile
            (p := fun g : Glyph => g.char != '=') (l := operand)
          rw [hdrop] at hoperand
          simp only [Bool.and_eq_true, Bool.not_eq_true'] at hchecks
          exact ⟨word, _, g, value, by rw [hoperand], hword, rfl, rfl, hchecks.2⟩

/-- A word has as many glyphs as the text that it spells has characters. -/
theorem length_of_textOf {word : List Glyph} {text : String} (h : textOf word = text) :
    word.length = text.toList.length := by
  rw [← h, textOf, String.toList_ofList, List.length_map]

/-- The words of a command that exports a variable are as long as the line for it. -/
theorem size_of_export? {command : List (List Glyph)} {v : String × String}
    (h : export? command = some v) : size command = (lineOf v).toList.length := by
  obtain ⟨word, name, g, value, rfl, hword, hname, hvalue, -⟩ := export?_eq_some h
  have hexport : "export".toList.length = 6 := rfl
  simp only [size, lineOf, List.length_append, List.length_cons, String.toList_append,
    length_of_textOf hword, length_of_textOf hname, length_of_textOf hvalue, hexport]
  have hstart : "export ".toList.length = 7 := rfl
  have hequals : "=".toList.length = 1 := rfl
  have hbreak : "\n".toList.length = 1 := rfl
  omega

/-- A plain glyph is its character and nothing else. -/
theorem Glyph.IsPlain.eq_bare {g : Glyph} (h : g.IsPlain) : bare g.char = g := by
  obtain ⟨c, isQuoted⟩ := g
  obtain rfl : isQuoted = false := h.1
  rfl

/-- A text that is read of plain glyphs is a value that is read as it is. -/
theorem isPlain_of_glyphs {glyphs : List Glyph} {value : String} (htext : textOf glyphs = value)
    (hplain : ∀ g ∈ glyphs, g.IsPlain) (hexpands : expands glyphs = false) : IsPlain value := by
  have hchars : value.toList = glyphs.map Glyph.char := by
    rw [← htext, textOf, String.toList_ofList]
  have hglyphs : value.toList.map bare = glyphs := by
    have hbare : ∀ g ∈ glyphs, (bare ∘ Glyph.char) g = id g := fun g hg => (hplain g hg).eq_bare
    rw [hchars, List.map_map, List.map_congr_left hbare, List.map_id]
  constructor
  case ordinary =>
    intro c hc
    rw [hchars] at hc
    obtain ⟨g, hg, rfl⟩ := List.mem_map.mp hc
    exact (hplain g hg).2
  case unexpanded => rw [hglyphs, hexpands]

/-- What commands say that export variables: their words are as long as the lines, and if all glyphs
are plain, the values are. -/
theorem exported_of_mapM {commands : List (List (List Glyph))} {vars : List (String × String)}
    (h : commands.mapM export? = some vars) :
    size commands.flatten = (linesOf vars).toList.length ∧
      ((∀ w ∈ commands.flatten, ∀ g ∈ w, g.IsPlain) → ∀ v ∈ vars, IsPlain v.2) := by
  rw [linesOf, String.toList_ofList]
  induction commands generalizing vars with
  | nil =>
    cases h
    exact ⟨rfl, fun _ => nofun⟩
  | cons command commands ih =>
    rw [List.mapM_cons] at h
    obtain ⟨v, hv, hrest⟩ := Option.bind_eq_some_iff.mp h
    obtain ⟨vars, hvars, hcons⟩ := Option.bind_eq_some_iff.mp hrest
    cases hcons
    obtain ⟨hsize, hplain⟩ := ih hvars
    constructor
    · rw [List.flatten_cons, size_append, size_of_export? hv, hsize, List.flatMap_cons,
        List.length_append]
    · intro hglyphs
      rw [List.flatten_cons, List.forall_mem_append] at hglyphs
      refine List.forall_mem_cons.mpr ⟨?_, hplain hglyphs.2⟩
      obtain ⟨word, name, g, value, rfl, -, -, hvalue, hexpands⟩ := export?_eq_some hv
      refine isPlain_of_glyphs hvalue (fun h hh => ?_) hexpands
      exact hglyphs.1 (name ++ g :: value) (by simp) h (by simp [hh])

/-- Lines end with a line break, if there are any. -/
theorem toList_linesOf {vars : List (String × String)} (h : vars ≠ []) :
    ∃ cs, (linesOf vars).toList = cs ++ ['\n'] := by
  obtain rfl | ⟨init, v, rfl⟩ := List.eq_nil_or_concat vars
  · exact absurd rfl h
  · refine ⟨(linesOf init).toList ++ ("export " ++ v.1 ++ "=" ++ v.2).toList, ?_⟩
    simp [linesOf, lineOf]

/-- Lines are read as the variables that they are for exactly when all values are plain. -/
theorem exports?_linesOf_iff {vars : List (String × String)}
    (hnames : ∀ v ∈ vars, isName v.1.toList = true) :
    exports? (linesOf vars) = some vars ↔ ∀ v ∈ vars, IsPlain v.2 := by
  refine ⟨fun h => ?_, exports?_linesOf hnames⟩
  by_cases hvars : vars = []
  · rw [hvars]
    nofun
  · obtain ⟨cs, hcs⟩ := toList_linesOf hvars
    obtain ⟨commands, hcommands, hexports⟩ := Option.bind_eq_some_iff.mp h
    obtain ⟨tokens, hread, htokens⟩ := Option.bind_eq_some_iff.mp hcommands
    obtain ⟨hsize, hplain⟩ := exported_of_mapM hexports
    rw [flatten_commandsFrom htokens, List.nil_append] at hsize hplain
    rw [hcs] at hread hsize
    refine hplain (Reader.plain_of_size_read hread ⟨rfl, nofun⟩ ?_)
    rw [hsize, List.length_append, Reader.held_start, Nat.zero_add]
    exact Nat.le_refl _

end FreshKeys.Shell
