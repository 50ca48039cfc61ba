/-!
# What a shell reads

A POSIX shell reads a text from the left into words. Blanks end a word, line breaks and semicolons
end a command too, and quotes keep characters from meaning anything. The reader here gives what a
text holds if that is plain commands only: nothing is read where something would be expanded, where
an operator stands, or where a quote is left open.
-/

namespace FreshKeys.Shell

/-- What a character means where nothing is quoted. -/
inductive Kind where
  | blank
  | newline
  | semicolon
  | backslash
  | single
  | double
  /-- Part of an operator, the start of an expansion, or no character of a text. -/
  | special
  | ordinary
  deriving DecidableEq, Repr

/-- The special characters. -/
def specials : List Char := ['$', '\x60', '*', '?', '&', '|', '<', '>', '(', ')', '\x00']

/-- What a character means. -/
def kind (c : Char) : Kind :=
  match c with
  | ' ' => .blank
  | '\t' => .blank
  | '\n' => .newline
  | ';' => .semicolon
  | '\\' => .backslash
  | '\x27' => .single
  | '"' => .double
  | c => if specials.contains c then .special else .ordinary

/-- A character of a word, and whether it was quoted. -/
structure Glyph where
  char : Char
  isQuoted : Bool
  deriving DecidableEq, Repr

/-- A character as it is. -/
def bare (c : Char) : Glyph := ⟨c, false⟩

/-- A character that was quoted. -/
def quoted (c : Char) : Glyph := ⟨c, true⟩

/-- What a text is read into: words, and the ends of commands. -/
inductive Token where
  | word (glyphs : List Glyph)
  | newline
  | semicolon
  deriving DecidableEq, Repr

/-- The word that a token is. -/
def Token.word? : Token → Option (List Glyph)
  | .word glyphs => some glyphs
  | _ => none

/-- How the next character is quoted. -/
inductive Quoting where
  | unquoted
  /-- Behind a backslash. -/
  | escaped
  | single
  | double
  /-- Behind a backslash in double quotes. -/
  | escapedInDouble
  /-- Part of a comment. -/
  | comment
  deriving DecidableEq, Repr

/-- Where a reader stands: the word it is in, last glyph first, and how the next character is
quoted. -/
structure Reader where
  word : Option (List Glyph)
  quoting : Quoting
  deriving DecidableEq, Repr

namespace Reader

/-- Before a word. -/
def start : Reader := ⟨none, .unquoted⟩

/-- In a word that goes on with some glyphs, last one first. -/
def extend (r : Reader) (quoting : Quoting) (glyphs : List Glyph) : Reader :=
  ⟨some (glyphs ++ r.word.getD []), quoting⟩

/-- In the same place, with another quoting. -/
def turn (r : Reader) (quoting : Quoting) : Reader := { r with quoting }

/-- The word that ends here, if there is one. -/
def ended (r : Reader) : List Token := (r.word.map fun w => Token.word w.reverse).toList

/-- Takes a character that nothing quotes. A number sign before a word starts a comment. -/
def takeUnquoted (r : Reader) (c : Char) : Option (List Token × Reader) :=
  match kind c with
  | .blank => some (r.ended, start)
  | .newline => some (r.ended ++ [.newline], start)
  | .semicolon => some (r.ended ++ [.semicolon], start)
  | .backslash => some ([], r.turn .escaped)
  | .single => some ([], r.extend .single [])
  | .double => some ([], r.extend .double [])
  | .special => none
  | .ordinary =>
    if c = '#' ∧ r.word = none then some ([], r.turn .comment)
    else some ([], r.extend .unquoted [bare c])

/-- Takes a character in double quotes. Expansions are made there too. -/
def takeDouble (r : Reader) (c : Char) : Option (List Token × Reader) :=
  match kind c with
  | .double => some ([], r.turn .unquoted)
  | .backslash => some ([], r.turn .escapedInDouble)
  | _ =>
    if c = '$' ∨ c = '\x60' then none
    else some ([], r.extend .double [quoted c])

/-- Whether a backslash quotes a character in double quotes; before others it stands for itself. -/
def isEscapable (c : Char) : Bool := c == '$' || c == '\x60' || c == '"' || c == '\\'

/-- Takes a character. A line break behind a backslash is none. -/
def take (r : Reader) (c : Char) : Option (List Token × Reader) :=
  if c = '\x00' then none
  else
    match r.quoting with
    | .unquoted => r.takeUnquoted c
    | .escaped =>
      if c = '\n' then some ([], r.turn .unquoted)
      else some ([], r.extend .unquoted [quoted c])
    | .single =>
      if kind c = .single then some ([], r.turn .unquoted)
      else some ([], r.extend .single [quoted c])
    | .double => r.takeDouble c
    | .escapedInDouble =>
      if c = '\n' then some ([], r.turn .double)
      else if isEscapable c then some ([], r.extend .double [quoted c])
      else some ([], r.extend .double [quoted c, quoted '\\'])
    | .comment => if c = '\n' then some ([.newline], start) else some ([], r)

/-- Ends the text. No quote may be open. -/
def finish (r : Reader) : Option (List Token) :=
  match r.quoting with
  | .unquoted => some r.ended
  | .comment => some []
  | _ => none

/-- Takes the characters of a text. -/
def read : Reader → List Char → Option (List Token)
  | r, [] => r.finish
  | r, c :: rest => (r.take c).bind fun (tokens, next) => (next.read rest).map (tokens ++ ·)

end Reader

/-- The commands that tokens make, after the words of an unfinished one. A semicolon ends a command,
so it cannot stand without one. -/
def commandsFrom : List (List Glyph) → List Token → Option (List (List (List Glyph)))
  | [], [] => some []
  | command, [] => some [command]
  | command, .word w :: rest => commandsFrom (command ++ [w]) rest
  | [], .newline :: rest => commandsFrom [] rest
  | command, .newline :: rest => (commandsFrom [] rest).map (command :: ·)
  | [], .semicolon :: _ => none
  | command, .semicolon :: rest => (commandsFrom [] rest).map (command :: ·)

/-- The commands that a text is. -/
def commands? (text : String) : Option (List (List (List Glyph))) :=
  (Reader.start.read text.toList).bind (commandsFrom [])

/-- What a word says once its quotes are gone. -/
def textOf (word : List Glyph) : String := String.ofList (word.map Glyph.char)

/-- Whether a character can be part of the name of a variable. -/
def isNameChar (c : Char) : Bool := c.isAlphanum || c == '_'

/-- Whether characters are the name of a variable. -/
def isName (name : List Char) : Bool :=
  !name.isEmpty && name.all isNameChar && !name.head?.any Char.isDigit

/-- Whether a shell would put a directory for a tilde: at the start of what is assigned, or behind
a colon. -/
def expandsTilde (opens : Bool) : List Glyph → Bool
  | [] => false
  | g :: rest => (opens && g == bare '~') || expandsTilde (g == bare ':') rest

/-- Whether a shell would look for a name that matches: at a bracket that another one closes. -/
def holdsBrackets : List Glyph → Bool
  | [] => false
  | g :: rest => (g == bare '[' && rest.any fun h => h.char == ']') || holdsBrackets rest

/-- Whether a value would be expanded although no character of it is special. -/
def expands (value : List Glyph) : Bool := expandsTilde true value || holdsBrackets value

/-- The variable that a word assigns to, and its value. -/
def assignment? (word : List Glyph) : Option (String × String) :=
  let name := word.takeWhile fun g => g.char != '='
  match word.dropWhile fun g => g.char != '=' with
  | [] => none
  | _ :: value =>
    if isName (name.map Glyph.char) && !expands value then
      some (textOf name, textOf value)
    else none

/-- The variable that a command exports, and its value. -/
def export? (command : List (List Glyph)) : Option (String × String) :=
  match command with
  | [name, operand] => if textOf name = "export" then assignment? operand else none
  | _ => none

/-- The variables that a text exports, if that is all it does. -/
def exports? (text : String) : Option (List (String × String)) :=
  (commands? text).bind fun commands => commands.mapM export?

example : exports? "export A='b c'\"d\"\\;\n" = some [("A", "b cd;")] := by decide

/-- The words among tokens. -/
def wordsOf (tokens : List Token) : List (List Glyph) := tokens.filterMap Token.word?

/-- Without tokens there are no words. -/
@[simp] theorem wordsOf_nil : wordsOf [] = [] := rfl

/-- Tokens one after the other hold the words of both parts. -/
@[simp] theorem wordsOf_append (v w : List Token) : wordsOf (v ++ w) = wordsOf v ++ wordsOf w :=
  List.filterMap_append

/-- A word is one of the words. -/
@[simp] theorem wordsOf_word (w : List Glyph) (rest : List Token) :
    wordsOf (.word w :: rest) = w :: wordsOf rest := rfl

/-- A line break is no word. -/
@[simp] theorem wordsOf_newline (rest : List Token) : wordsOf (.newline :: rest) = wordsOf rest :=
  rfl

/-- Nor is a semicolon. -/
@[simp] theorem wordsOf_semicolon (rest : List Token) :
    wordsOf (.semicolon :: rest) = wordsOf rest := rfl

/-- The commands hold the words, in their order. -/
theorem flatten_commandsFrom {command : List (List Glyph)} {tokens : List Token}
    {commands : List (List (List Glyph))} (h : commandsFrom command tokens = some commands) :
    commands.flatten = command ++ wordsOf tokens := by
  fun_induction commandsFrom command tokens generalizing commands with
  | case1 =>
    cases h
    rfl
  | case2 =>
    cases h
    simp
  | case3 command w rest ih => simpa using ih h
  | case4 rest ih => simpa using ih h
  | case6 => cases h
  | case5 command rest _ ih | case7 command rest _ ih =>
    obtain ⟨more, hmore, rfl⟩ := Option.map_eq_some_iff.mp h
    simpa using ih hmore

/-- How many characters words take up at least, each with the end of it. -/
def size : List (List Glyph) → Nat
  | [] => 0
  | w :: rest => w.length + 1 + size rest

/-- Words one after the other take up what both parts do. -/
theorem size_append (v w : List (List Glyph)) : size (v ++ w) = size v + size w := by
  induction v with
  | nil => exact (Nat.zero_add _).symm
  | cons u rest ih => simp only [List.cons_append, size, ih, Nat.add_assoc]

/-- A character that stands for itself in any word. -/
def Glyph.IsPlain (g : Glyph) : Prop := g.isQuoted = false ∧ kind g.char = .ordinary

namespace Reader

/-- How many characters a reader holds that are in no token yet. -/
def held (r : Reader) : Nat :=
  (r.word.getD []).length + if r.quoting = .escapedInDouble then 1 else 0

/-- Nothing was quoted so far. -/
structure IsPlain (r : Reader) : Prop where
  unquoted : r.quoting = .unquoted
  glyphs : ∀ g ∈ r.word.getD [], g.IsPlain

/-- A word that ends where nothing was quoted is as it is. -/
theorem IsPlain.word {r : Reader} (h : r.IsPlain) :
    ∀ w ∈ (r.word.map List.reverse).toList, ∀ g ∈ w, g.IsPlain := by
  intro w hw g hg
  cases hword : r.word with
  | none => simp [hword] at hw
  | some word =>
    obtain rfl : w = word.reverse := by simpa [hword] using hw
    exact h.glyphs g (by simpa [hword] using hg)

/-- The word that ends is the one that the reader is in. -/
@[simp] theorem wordsOf_ended (r : Reader) :
    wordsOf r.ended = (r.word.map List.reverse).toList := by
  cases hword : r.word <;> simp [ended, wordsOf, hword, Token.word?]

/-- At the start there is no word to end. -/
@[simp] theorem ended_start : start.ended = [] := rfl

/-- At the start nothing is held. -/
@[simp] theorem held_start : start.held = 0 := rfl

/-- A word that is extended is longer by what is put to it. -/
@[simp] theorem length_extend (r : Reader) (quoting : Quoting) (glyphs : List Glyph) :
    ((r.extend quoting glyphs).word.getD []).length =
      glyphs.length + (r.word.getD []).length := by
  simp [extend]

/-- Extending a word leaves the reader in the quoting that it is told. -/
@[simp] theorem quoting_extend (r : Reader) (quoting : Quoting) (glyphs : List Glyph) :
    (r.extend quoting glyphs).quoting = quoting := rfl

/-- A turn of the quoting leaves the word alone. -/
@[simp] theorem word_turn (r : Reader) (quoting : Quoting) : (r.turn quoting).word = r.word := rfl

/-- A turn leaves the reader in the quoting that it is told. -/
@[simp] theorem quoting_turn (r : Reader) (quoting : Quoting) :
    (r.turn quoting).quoting = quoting := rfl

/-- A text is read by taking its first character and reading on. -/
theorem read_cons_eq_some_iff {r : Reader} {c : Char} {rest : List Char} {tokens : List Token} :
    r.read (c :: rest) = some tokens ↔ ∃ taken next more,
      r.take c = some (taken, next) ∧ next.read rest = some more ∧ tokens = taken ++ more := by
  simp only [read, Option.bind_eq_some_iff, Option.map_eq_some_iff, Prod.exists]
  constructor
  · rintro ⟨taken, next, htake, more, hmore, rfl⟩
    exact ⟨taken, next, more, htake, hmore, rfl⟩
  · rintro ⟨taken, next, more, htake, hmore, rfl⟩
    exact ⟨taken, next, htake, more, hmore, rfl⟩

/-- Where nothing quotes it, a character is taken as that. -/
theorem takeUnquoted_of_take {r next : Reader} {c : Char} {taken : List Token}
    (hquoting : r.quoting = .unquoted) (h : r.take c = some (taken, next)) :
    r.takeUnquoted c = some (taken, next) := by
  unfold take at h
  split at h
  · cases h
  · simpa only [hquoting] using h

/-- What taking a character comes to that nothing quotes: it is put to the word, or the word ends, or
it is lost on what follows. -/
theorem takeUnquoted_cases {r next : Reader} {c : Char} {tokens : List Token}
    (hquoting : r.quoting = .unquoted) (h : r.takeUnquoted c = some (tokens, next)) :
    (kind c = .ordinary ∧ wordsOf tokens = [] ∧ next = r.extend .unquoted [bare c]) ∨
      (wordsOf tokens = (r.word.map List.reverse).toList ∧ next = start) ∨
      (wordsOf tokens = [] ∧ next.held ≤ r.held) := by
  have hheld : r.held = (r.word.getD []).length := by simp [held, hquoting]
  unfold takeUnquoted at h
  cases hkind : kind c with
  | special => simp [hkind] at h
  | ordinary =>
    rw [hkind] at h
    simp only at h
    split at h
    · cases h
      exact .inr (.inr ⟨rfl, by simp [held, hquoting]⟩)
    · cases h
      exact .inl ⟨rfl, rfl, rfl⟩
  | blank =>
    simp only [hkind, Option.some.injEq, Prod.mk.injEq] at h
    obtain ⟨rfl, rfl⟩ := h
    exact .inr (.inl ⟨wordsOf_ended r, rfl⟩)
  | newline =>
    simp only [hkind, Option.some.injEq, Prod.mk.injEq] at h
    obtain ⟨rfl, rfl⟩ := h
    exact .inr (.inl ⟨by simp, rfl⟩)
  | semicolon =>
    simp only [hkind, Option.some.injEq, Prod.mk.injEq] at h
    obtain ⟨rfl, rfl⟩ := h
    exact .inr (.inl ⟨by simp, rfl⟩)
  | backslash | single | double =>
    simp only [hkind, Option.some.injEq, Prod.mk.injEq] at h
    obtain ⟨rfl, rfl⟩ := h
    exact .inr (.inr ⟨rfl, by simp [held, hquoting]⟩)

/-- Nothing ends within double quotes. -/
theorem takeDouble_held {r next : Reader} {c : Char} {tokens : List Token}
    (hquoting : r.quoting = .double) (h : r.takeDouble c = some (tokens, next)) :
    wordsOf tokens = [] ∧ next.held ≤ r.held + 1 := by
  unfold takeDouble at h
  split at h
  · cases h
    exact ⟨rfl, by simp [held, hquoting]⟩
  · cases h
    exact ⟨rfl, by simp [held, hquoting]⟩
  · split at h
    · cases h
    · cases h
      exact ⟨rfl, by simp [held, hquoting, Nat.add_comm]⟩

/-- Where a character is quoted or part of a comment, no word ends, and the reader holds at most one
character more. -/
theorem take_held {r next : Reader} {c : Char} {tokens : List Token}
    (hquoting : r.quoting ≠ .unquoted) (h : r.take c = some (tokens, next)) :
    wordsOf tokens = [] ∧ next.held ≤ r.held + 1 := by
  unfold take at h
  split at h
  · cases h
  · cases hmode : r.quoting with
    | unquoted => exact absurd hmode hquoting
    | double =>
      simp only [hmode] at h
      exact takeDouble_held hmode h
    | escapedInDouble =>
      simp only [hmode] at h
      split at h
      · cases h
        exact ⟨rfl, by simp [held, hmode, Nat.add_assoc]⟩
      · split at h <;> cases h <;> exact ⟨rfl, by simp [held, hmode]; omega⟩
    | escaped | single =>
      simp only [hmode] at h
      split at h
      · cases h
        exact ⟨rfl, by simp [held, hmode]⟩
      · cases h
        exact ⟨rfl, by simp [held, hmode, Nat.add_comm]⟩
    | comment =>
      simp only [hmode] at h
      split at h
      · cases h
        exact ⟨rfl, Nat.zero_le _⟩
      · cases h
        exact ⟨rfl, Nat.le_succ _⟩

/-- A text ends with a line break only where nothing is quoted, or behind a backslash. -/
theorem wordsOf_read_newline {r : Reader} {tokens : List Token}
    (h : r.read ['\n'] = some tokens) :
    wordsOf tokens = [] ∨ wordsOf tokens = (r.word.map List.reverse).toList := by
  obtain ⟨taken, next, finished, htake, hfinish, rfl⟩ := read_cons_eq_some_iff.mp h
  have hkind : kind '\n' = .newline := rfl
  have hnul : '\n' ≠ '\x00' := by decide
  cases hquoting : r.quoting <;>
    simp only [take, if_neg hnul, hquoting, takeUnquoted, takeDouble, hkind, if_true] at htake
  case unquoted =>
    cases htake
    cases hfinish
    exact .inr (by simp)
  case escaped =>
    cases htake
    cases hfinish
    exact .inr (by simp)
  case comment =>
    cases htake
    cases hfinish
    exact .inl rfl
  -- a quote that is open is open at the end
  case single =>
    rw [if_neg (by decide)] at htake
    cases htake
    cases hfinish
  case double =>
    rw [if_neg (by decide)] at htake
    cases htake
    cases hfinish
  case escapedInDouble =>
    cases htake
    cases hfinish

/-- The word that a reader is in takes up what the reader holds, and its end. -/
theorem size_word_le (r : Reader) : size (r.word.map List.reverse).toList ≤ r.held + 1 := by
  obtain ⟨_ | word, quoting⟩ := r
  · simp [size]
  · simp [size, held]

/-- A character makes for one more at most, in the words that end and what the reader holds. -/
theorem size_take_le {r next : Reader} {c : Char} {taken : List Token}
    (h : r.take c = some (taken, next)) : size (wordsOf taken) + next.held ≤ r.held + 1 := by
  by_cases hquoting : r.quoting = .unquoted
  · obtain ⟨-, hwords, rfl⟩ | ⟨hwords, rfl⟩ | ⟨hwords, hheld⟩ :=
      takeUnquoted_cases hquoting (takeUnquoted_of_take hquoting h) <;> rw [hwords]
    · simp [held, hquoting, size, Nat.add_comm]
    · exact size_word_le r
    · simpa only [size, Nat.zero_add] using Nat.le_succ_of_le hheld
  · obtain ⟨hwords, hheld⟩ := take_held hquoting h
    rw [hwords]
    simpa only [size, Nat.zero_add] using hheld

/-- A character that makes for one more where nothing was quoted is not quoted either. -/
theorem plain_of_take {r next : Reader} {c : Char} {taken : List Token}
    (h : r.take c = some (taken, next)) (hplain : r.IsPlain)
    (hsize : r.held + 1 ≤ size (wordsOf taken) + next.held) :
    next.IsPlain ∧ ∀ w ∈ wordsOf taken, ∀ g ∈ w, g.IsPlain := by
  obtain ⟨hkind, hwords, rfl⟩ | ⟨hwords, rfl⟩ | ⟨hwords, hheld⟩ :=
    takeUnquoted_cases hplain.unquoted (takeUnquoted_of_take hplain.unquoted h)
  · rw [hwords]
    refine ⟨⟨rfl, ?_⟩, nofun⟩
    simp only [extend, Option.getD_some, List.cons_append, List.nil_append, List.forall_mem_cons]
    exact ⟨⟨rfl, hkind⟩, hplain.glyphs⟩
  · rw [hwords]
    exact ⟨⟨rfl, nofun⟩, hplain.word⟩
  · rw [hwords] at hsize
    simp only [size] at hsize
    omega

/-- A text that ends with a line break has a character for each one of its words and for the end of
each word. -/
theorem size_read_le {r : Reader} {cs : List Char} {tokens : List Token}
    (h : r.read (cs ++ ['\n']) = some tokens) :
    size (wordsOf tokens) ≤ r.held + cs.length + 1 := by
  induction cs generalizing r tokens with
  | nil =>
    rcases wordsOf_read_newline h with hwords | hwords <;> rw [hwords]
    · exact Nat.zero_le _
    · exact size_word_le r
  | cons c rest ih =>
    obtain ⟨taken, next, more, htake, hmore, rfl⟩ := read_cons_eq_some_iff.mp h
    have htaken := size_take_le htake
    have hrest := ih hmore
    rw [wordsOf_append, size_append, List.length_cons]
    omega

/-- If its words take up all of a text, nothing in it is quoted. -/
theorem plain_of_size_read {r : Reader} {cs : List Char} {tokens : List Token}
    (h : r.read (cs ++ ['\n']) = some tokens) (hplain : r.IsPlain)
    (hsize : r.held + cs.length + 1 ≤ size (wordsOf tokens)) :
    ∀ w ∈ wordsOf tokens, ∀ g ∈ w, g.IsPlain := by
  induction cs generalizing r tokens with
  | nil =>
    rcases wordsOf_read_newline h with hwords | hwords <;> rw [hwords]
    · nofun
    · exact hplain.word
  | cons c rest ih =>
    obtain ⟨taken, next, more, htake, hmore, rfl⟩ := read_cons_eq_some_iff.mp h
    have htaken := size_take_le htake
    have hrest := size_read_le hmore
    rw [wordsOf_append, size_append, List.length_cons] at hsize
    -- no character can be lost
    obtain ⟨hnext, hwords⟩ := plain_of_take htake hplain (by omega)
    rw [wordsOf_append]
    intro w hw
    rcases List.mem_append.mp hw with hw | hw
    · exact hwords w hw
    · exact ih hmore hnext (by omega) w hw

end Reader

end FreshKeys.Shell
