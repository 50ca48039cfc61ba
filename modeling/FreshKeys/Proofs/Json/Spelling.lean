import FreshKeys.Proofs.Json.Lexemes

/-!
# A value that is written is read back

The text of a value whose numbers are integers of 64 bits is one document, and its tree is that of
the value, the members of each object in their order. The proof goes along the value: wherever a
value may start, its characters bring the reading to where the finished value is put in place.
-/

namespace FreshKeys.Json

open FreshKeys.Text (Mark)
open Node (Document Member Open Progress)

mutual

/-- The numbers of a value are integers of 64 bits. -/
def IsWhole : Json → Prop
  | .number (.int n) => -(Nat.pow 2 63 : ℤ) ≤ n ∧ n ≤ Literal.maxWord
  | .number (.float _ _) => False
  | .array items => AreWhole items
  | .object members => HasWhole members
  | _ => True

/-- The numbers of all items are integers of 64 bits. -/
def AreWhole : List Json → Prop
  | [] => True
  | item :: rest => item.IsWhole ∧ AreWhole rest

/-- The numbers of all members are integers of 64 bits. -/
def HasWhole : List (String × Json) → Prop
  | [] => True
  | (_, value) :: rest => value.IsWhole ∧ HasWhole rest

end

mutual

/-- The tree of a value as it is written. -/
def written : Json → Node
  | .null => .null
  | .bool b => .bool b
  | .number n => .number (some n)
  | .text s => .text (some s)
  | .array items => .array (writtenItems items) true
  | .object members => .object (writtenMembers members) true

/-- The trees of items. -/
def writtenItems : List Json → List Node
  | [] => []
  | item :: rest => item.written :: writtenItems rest

/-- The trees of members. -/
def writtenMembers : List (String × Json) → List Member
  | [] => []
  | (key, value) :: rest => (some key, value.written) :: writtenMembers rest

end

/-- Parts after others, a comma before each. -/
def continued (parts : List (List Char)) : List Char := parts.flatMap (',' :: ·)

/-- Parts between brackets are the first one and those that go on. -/
theorem enclose_cons (opening closing : Char) (part : List Char) (parts : List (List Char)) :
    enclose opening closing (part :: parts) =
      opening :: (part ++ (continued parts ++ [closing])) := by
  have hcommas : [','].intercalate (part :: parts) = part ++ continued parts := by
    induction parts generalizing part with
    | nil => simp [continued]
    | cons next parts ih =>
      rw [List.intercalate_cons_cons, ih next]
      simp [continued]
  simp [enclose, hcommas]

variable {levels : List Open} {p q : Progress} {rest : List Mark}

/-- A token that may stand here is read. -/
theorem build_cons {t : Token} (h : p.step t = some q) (ts : List Token) :
    Document.build p (t :: ts) = Document.build q ts := by
  simp only [Document.build, h]

/-- Further items or members, and the bracket at their end, begin with what may follow a value. -/
theorem delimits_continued (parts : List (List Char)) {closing : Char}
    (h : closing = ']' ∨ closing = '\x7d') (rest : List Mark) :
    Delimits ((continued parts).map some ++ some closing :: rest) := by
  intro m hm
  cases parts with
  | nil =>
    obtain rfl : some closing = m := by simpa [continued] using hm
    exact Or.inr (h.imp (congrArg some) (congrArg some))
  | cons part parts =>
    obtain rfl : some ',' = m := by simpa [continued] using hm
    exact Or.inl rfl

/-- A value may start here: it is begun by every token but the end of an array. -/
def Node.Progress.Awaits (p : Progress) (levels : List Open) : Prop :=
  ∀ t, t ≠ .endArray → p.step t = Progress.start levels t

/-- A value may start where one has to. -/
theorem awaits_value (levels : List Open) : (Progress.inside levels .value).Awaits levels :=
  fun _ _ => rfl

/-- The first item of an array may start where the array may end as well. -/
theorem awaits_itemOrEnd (done : List Node) (levels : List Open) :
    (Progress.inside (.array done :: levels) .itemOrEnd).Awaits (.array done :: levels) := by
  intro t ht
  cases t with
  | endArray => exact absurd rfl ht
  | _ => rfl

/-- A token that is a value by itself is put in its place. -/
theorem build_single {t : Token} (hp : p.Awaits levels) (ht : t ≠ .endArray)
    (hq : Progress.start levels t = some q) (ts : List Token) :
    Document.build p (t :: ts) = Document.build q ts :=
  build_cons ((hp t ht).trans hq) ts

/-- A key is read with the colon after it. -/
theorem build_key {members : List Member}
    (hp : ∀ t, t ≠ .endObject → p.step t = Progress.takeKey (.object members :: levels) t)
    (key : String) (rest : List Mark) :
    Document.build p (Token.scan ((spellText key).map some ++ some ':' :: rest)) =
      Document.build (.inside (.member members (some key) :: levels) .value)
        (Token.scan rest) := by
  rw [Token.scan_spellText, Token.scan_colon, build_cons (hp _ (by simp)), build_cons rfl]

/-- The first member of an object may start where the object may end as well. -/
theorem step_keyOrEnd (members : List Member) (levels : List Open) (t : Token)
    (ht : t ≠ .endObject) :
    (Progress.inside (.object members :: levels) .keyOrEnd).step t =
      Progress.takeKey (.object members :: levels) t := by
  cases t with
  | endObject => exact absurd rfl ht
  | _ => rfl

-- What is open around a value, and what comes after it, is arbitrary: a value is read in the same
-- way at every depth. A number needs `Delimits`, or it might go on.
mutual

/-- The characters of a value bring the reading to where the value is in its place. -/
theorem build_spell (value : Json) (hvalue : value.IsWhole) {levels : List Open} {p q : Progress}
    {rest : List Mark} (hp : p.Awaits levels)
    (hq : Progress.place value.written levels = some q) (hrest : Delimits rest) :
    Document.build p (Token.scan (value.spell.map some ++ rest)) =
      Document.build q (Token.scan rest) := by
  match value with
  | .null =>
    have hscan : Token.scan ((spell .null).map some ++ rest) = .null :: Token.scan rest :=
      Token.scan_of_next rfl rfl
    rw [hscan]
    apply build_single hp (by simp)
    exact hq
  | .bool b =>
    have hscan : Token.scan ((spell (.bool b)).map some ++ rest) = .bool b :: Token.scan rest := by
      cases b <;> exact Token.scan_of_next rfl rfl
    rw [hscan]
    apply build_single hp (by simp)
    exact hq
  | .number (.float _ _) => exact hvalue.elim
  | .number (.int n) =>
    rw [spell, spellNumber, Token.scan_integer hvalue.1 hvalue.2 hrest]
    apply build_single hp (by simp)
    exact hq
  | .text s =>
    rw [spell, Token.scan_spellText]
    apply build_single hp (by simp)
    exact hq
  | .array [] =>
    have hscan : Token.scan ((spell (.array [])).map some ++ rest) =
        .beginArray :: .endArray :: Token.scan rest := by
      simp [spell, spellItems, enclose]
    have hend : (Progress.inside (.array [] :: levels) .itemOrEnd).step .endArray = some q := by
      have hclose : Progress.close (.array [] :: levels) .endArray = some q := hq
      simp only [Progress.step, hclose, Option.orElse_some]
    rw [hscan, build_single hp (by simp) rfl, build_cons hend]
  | .array (item :: items) =>
    have hscan : Token.scan ((spell (.array (item :: items))).map some ++ rest) =
        .beginArray :: Token.scan (item.spell.map some ++
          ((continued (spellItems items)).map some ++ some ']' :: rest)) := by
      simp [spell, spellItems, enclose_cons]
    rw [hscan, build_single hp (by simp) rfl]
    -- the first item stands where the array might have ended, the others after a comma
    have hitem := build_spell item hvalue.1 (awaits_itemOrEnd [] levels) rfl
      (delimits_continued (spellItems items) (Or.inl rfl) rest)
    rw [hitem]
    exact build_items items hvalue.2 [item.written] rest hq
  | .object [] =>
    have hscan : Token.scan ((spell (.object [])).map some ++ rest) =
        .beginObject :: .endObject :: Token.scan rest := by
      simp [spell, spellMembers, enclose]
    have hend : (Progress.inside (.object [] :: levels) .keyOrEnd).step .endObject = some q := by
      have hclose : Progress.close (.object [] :: levels) .endObject = some q := hq
      simp only [Progress.step, hclose, Option.orElse_some]
    rw [hscan, build_single hp (by simp) rfl, build_cons hend]
  | .object ((key, value) :: members) =>
    have hscan : Token.scan ((spell (.object ((key, value) :: members))).map some ++ rest) =
        .beginObject :: Token.scan ((spellText key).map some ++ some ':' :: (value.spell.map some ++
          ((continued (spellMembers members)).map some ++ some '\x7d' :: rest))) := by
      simp [spell, spellMembers, enclose_cons]
    rw [hscan, build_single hp (by simp) rfl, build_key (step_keyOrEnd [] levels)]
    have hmember := build_spell value hvalue.1 (awaits_value (.member [] (some key) :: levels)) rfl
      (delimits_continued (spellMembers members) (Or.inr rfl) rest)
    rw [hmember]
    exact build_members members hvalue.2 [(some key, value.written)] rest hq

/-- The characters of further items, and of the end, bring the reading past the array. -/
theorem build_items (items : List Json) (hitems : AreWhole items) (done : List Node)
    {levels : List Open} {q : Progress} (rest : List Mark)
    (hq : Progress.place (.array (done.reverse ++ writtenItems items) true) levels = some q) :
    Document.build (.inside (.array done :: levels) .commaOrEnd)
        (Token.scan ((continued (spellItems items)).map some ++ some ']' :: rest)) =
      Document.build q (Token.scan rest) := by
  match items with
  | [] =>
    have hscan : Token.scan ((continued (spellItems [])).map some ++ some ']' :: rest) =
        .endArray :: Token.scan rest := by
      simp [spellItems, continued]
    have hend : Progress.place (.array done.reverse true) levels = some q := by
      simpa [writtenItems] using hq
    rw [hscan]
    apply build_cons
    exact hend
  | item :: items =>
    have hscan : Token.scan ((continued (spellItems (item :: items))).map some ++
          some ']' :: rest) =
        .comma :: Token.scan (item.spell.map some ++
          ((continued (spellItems items)).map some ++ some ']' :: rest)) := by
      simp [spellItems, continued]
    rw [hscan, build_cons rfl]
    have hitem := build_spell item hitems.1 (awaits_value (.array done :: levels)) rfl
      (delimits_continued (spellItems items) (Or.inl rfl) rest)
    rw [hitem]
    apply build_items items hitems.2 (item.written :: done) rest
    simpa [writtenItems] using hq

/-- The characters of further members, and of the end, bring the reading past the object. -/
theorem build_members (members : List (String × Json)) (hmembers : HasWhole members)
    (done : List Member) {levels : List Open} {q : Progress} (rest : List Mark)
    (hq : Progress.place (.object (done.reverse ++ writtenMembers members) true) levels = some q) :
    Document.build (.inside (.object done :: levels) .commaOrEnd)
        (Token.scan ((continued (spellMembers members)).map some ++ some '\x7d' :: rest)) =
      Document.build q (Token.scan rest) := by
  match members with
  | [] =>
    have hscan : Token.scan ((continued (spellMembers [])).map some ++ some '\x7d' :: rest) =
        .endObject :: Token.scan rest := by
      simp [spellMembers, continued]
    have hend : Progress.place (.object done.reverse true) levels = some q := by
      simpa [writtenMembers] using hq
    rw [hscan]
    apply build_cons
    exact hend
  | (key, value) :: members =>
    have hscan : Token.scan ((continued (spellMembers ((key, value) :: members))).map some ++
          some '\x7d' :: rest) =
        .comma :: Token.scan ((spellText key).map some ++ some ':' :: (value.spell.map some ++
          ((continued (spellMembers members)).map some ++ some '\x7d' :: rest))) := by
      simp [spellMembers, continued]
    rw [hscan, build_cons rfl, build_key (fun _ _ => rfl)]
    have hvalue := build_spell value hmembers.1
      (awaits_value (.member done (some key) :: levels)) rfl
      (delimits_continued (spellMembers members) (Or.inr rfl) rest)
    rw [hvalue]
    apply build_members members hmembers.2 ((some key, value.written) :: done) rest
    simpa [writtenMembers] using hq

end

/-- The text of a value is one document, with the tree of the value. -/
theorem ofText_print {value : Json} (hvalue : value.IsWhole) :
    Document.ofText value.print = ⟨value.written, true⟩ := by
  have hnothing : Delimits [] := fun _ h => nomatch h
  have hbuild := build_spell value hvalue (awaits_value []) rfl hnothing
  rw [List.append_nil, Token.scan_nil] at hbuild
  have hmarks : Text.marksOf value.print = value.spell.map some := by
    rw [Text.marksOf, print, String.toList_ofList]
  rw [Document.ofText, Document.ofMarks, Document.ofTokens, hmarks, hbuild]
  rfl

/-- So are bytes that the characters of the text are read from. -/
theorem ofBytes_of_marks {bytes : ByteArray} {value : Json} (hvalue : value.IsWhole)
    (hmarks : Text.Utf8.marks bytes.toList = Text.marksOf value.print) :
    Document.ofBytes bytes = ⟨value.written, true⟩ := by
  rw [Document.ofBytes, hmarks]
  exact ofText_print hvalue

end FreshKeys.Json
