import FreshKeys.Cli.Program
import FreshKeys.Proofs.Shell.Lines

/-!
# What a shell makes of an exported pair

A pair is exported as two lines, with its values put there as they are. A shell reads the pair from
them exactly when both values are plain: anything else in a value is lost, splits the value, or is a
command of its own. The lines of two different pairs are the same text exactly when the access key
id of one goes on as the lines of the other do.
-/

namespace FreshKeys.Cli

/-- The variables that a pair is exported as. -/
def exportedOf (pair : KeyPair) : List (String × String) :=
  [("AWS_ACCESS_KEY_ID", pair.accessKeyId), ("AWS_SECRET_ACCESS_KEY", pair.secretAccessKey)]

/-- What stands between the two values of an exported pair. -/
def seam : String := "\nexport AWS_SECRET_ACCESS_KEY="

/-- The access key id of a pair goes on as the lines of another pair do, up to a part that is the
start of the other secret. -/
def Absorbs (pair other : KeyPair) : Prop :=
  ∃ between, pair.accessKeyId = other.accessKeyId ++ seam ++ between ∧
    other.secretAccessKey = between ++ seam ++ pair.secretAccessKey

/-- What is exported is a line for each of the two variables. -/
theorem report_eq_linesOf (pair : KeyPair) : report true pair = Shell.linesOf (exportedOf pair) := by
  rw [← String.toList_inj]
  simp [report, Shell.linesOf, exportedOf, Shell.lineOf]

/-- A shell reads an exported pair as the pair exactly when both values are plain. -/
theorem exports?_report_iff (pair : KeyPair) :
    Shell.exports? (report true pair) = some (exportedOf pair) ↔
      Shell.IsPlain pair.accessKeyId ∧ Shell.IsPlain pair.secretAccessKey := by
  have hnames : ∀ v ∈ exportedOf pair, Shell.isName v.1.toList = true := by
    simp only [exportedOf, List.forall_mem_cons]
    exact ⟨by decide, by decide, nofun⟩
  rw [report_eq_linesOf, Shell.exports?_linesOf_iff hnames]
  simp [exportedOf]

/-- The keys that stores hand out are read as they are. -/
theorem exports?_report_of_keyChars {pair : KeyPair}
    (hid : ∀ c ∈ pair.accessKeyId.toList, Shell.isKeyChar c = true)
    (hsecret : ∀ c ∈ pair.secretAccessKey.toList, Shell.isKeyChar c = true) :
    Shell.exports? (report true pair) = some (exportedOf pair) :=
  (exports?_report_iff pair).mpr
    ⟨Shell.isPlain_of_keyChars hid, Shell.isPlain_of_keyChars hsecret⟩

variable {α : Type} {x : α} {s : List α}

/-- A seam that starts as it does not go on is behind the start of another seam only if it lies
behind all of it. -/
theorem seam_append_eq (hs : x ∉ s) {b d l : List α}
    (h : x :: s ++ b = l ++ (x :: s ++ d)) :
    l = [] ∧ b = d ∨ ∃ m, l = x :: s ++ m ∧ b = m ++ (x :: s ++ d) := by
  cases l with
  | nil => exact .inl ⟨rfl, List.append_cancel_left h⟩
  | cons y l =>
    obtain ⟨rfl, htail⟩ := List.cons.inj h
    obtain ⟨m, rfl, hb⟩ | ⟨m, hsplit, hm⟩ := List.append_eq_append_iff.mp htail
    · exact .inr ⟨m, rfl, hb⟩
    · cases m with
      | nil =>
        rw [List.append_nil] at hsplit
        exact .inr ⟨[], by rw [hsplit, List.append_nil], hm.symm⟩
      | cons z m =>
        -- the second seam would start within the first
        obtain ⟨rfl, -⟩ := List.cons.inj hm
        exact absurd (hsplit ▸ List.mem_append_right l List.mem_cons_self) hs

/-- Two texts with a seam in each are the same exactly when their parts are, or when the seam of one
lies in a part of the other. -/
theorem append_seam_eq_iff (hs : x ∉ s) {a b c d : List α} :
    a ++ (x :: s ++ b) = c ++ (x :: s ++ d) ↔
      (a = c ∧ b = d) ∨ (∃ m, a = c ++ (x :: s ++ m) ∧ d = m ++ (x :: s ++ b)) ∨
        ∃ m, c = a ++ (x :: s ++ m) ∧ b = m ++ (x :: s ++ d) := by
  constructor
  · intro h
    obtain ⟨l, rfl, hl⟩ | ⟨l, rfl, hl⟩ := List.append_eq_append_iff.mp h
    · obtain ⟨rfl, rfl⟩ | ⟨m, rfl, hb⟩ := seam_append_eq hs hl
      · exact .inl ⟨(List.append_nil a).symm, rfl⟩
      · exact .inr (.inr ⟨m, rfl, hb⟩)
    · obtain ⟨rfl, rfl⟩ | ⟨m, rfl, hd⟩ := seam_append_eq hs hl
      · exact .inl ⟨List.append_nil c, rfl⟩
      · exact .inr (.inl ⟨m, rfl, hd⟩)
  · rintro (⟨rfl, rfl⟩ | ⟨m, rfl, rfl⟩ | ⟨m, rfl, rfl⟩) <;> simp

/-- A seam starts with a line break. -/
theorem toList_seam : seam.toList = '\n' :: "export AWS_SECRET_ACCESS_KEY=".toList := rfl

/-- What is exported, as characters: two values with a seam between them. -/
theorem toList_report (pair : KeyPair) : (report true pair).toList =
    "export AWS_ACCESS_KEY_ID=".toList ++
      (pair.accessKeyId.toList ++ (seam.toList ++ pair.secretAccessKey.toList) ++ ['\n']) := by
  simp [report, toList_seam]

/-- That a pair goes on as the lines of another do, said of characters. -/
theorem absorbs_iff {pair other : KeyPair} : Absorbs pair other ↔
    ∃ between, pair.accessKeyId.toList = other.accessKeyId.toList ++ (seam.toList ++ between) ∧
      other.secretAccessKey.toList = between ++ (seam.toList ++ pair.secretAccessKey.toList) := by
  constructor
  · rintro ⟨between, hid, hsecret⟩
    exact ⟨between.toList, by simp [hid], by simp [hsecret]⟩
  · rintro ⟨between, hid, hsecret⟩
    refine ⟨String.ofList between, ?_, ?_⟩ <;> rw [← String.toList_inj]
    · simp [hid]
    · simp [hsecret]

/-- Two pairs are exported as the same text exactly when their values are the same, or when one of
them goes on as the lines of the other do. -/
theorem report_eq_iff (pair other : KeyPair) : report true pair = report true other ↔
    exportedOf pair = exportedOf other ∨ Absorbs pair other ∨ Absorbs other pair := by
  have hseam : '\n' ∉ "export AWS_SECRET_ACCESS_KEY=".toList := by decide
  have hvalues : exportedOf pair = exportedOf other ↔
      pair.accessKeyId.toList = other.accessKeyId.toList ∧
        pair.secretAccessKey.toList = other.secretAccessKey.toList := by
    simp [exportedOf, String.toList_inj]
  rw [← String.toList_inj, toList_report, toList_report, List.append_cancel_left_eq,
    List.append_cancel_right_eq, hvalues, absorbs_iff, absorbs_iff, toList_seam,
    append_seam_eq_iff hseam]

/-- A seam holds a line break, so ids without one are told apart. -/
theorem exportedOf_eq_of_report_eq {pair other : KeyPair} (hpair : '\n' ∉ pair.accessKeyId.toList)
    (hother : '\n' ∉ other.accessKeyId.toList) (h : report true pair = report true other) :
    exportedOf pair = exportedOf other := by
  have hbreak : ∀ {a b : KeyPair}, Absorbs a b → '\n' ∈ a.accessKeyId.toList := by
    intro a b habsorbs
    obtain ⟨between, hid, -⟩ := absorbs_iff.mp habsorbs
    rw [hid, toList_seam]
    simp
  obtain hsame | habsorbs | habsorbs := (report_eq_iff pair other).mp h
  · exact hsame
  · exact absurd (hbreak habsorbs) hpair
  · exact absurd (hbreak habsorbs) hother

/-- What a shell reads of any exported pair, and what other pairs are exported as the same text. -/
theorem export_read_iff (pair : KeyPair) :
    (Shell.exports? (report true pair) = some (exportedOf pair) ↔
        Shell.IsPlain pair.accessKeyId ∧ Shell.IsPlain pair.secretAccessKey) ∧
      ∀ other, report true pair = report true other ↔
        exportedOf pair = exportedOf other ∨ Absorbs pair other ∨ Absorbs other pair :=
  ⟨exports?_report_iff pair, report_eq_iff pair⟩

/-- A secret key that holds a semicolon ends its command, and the rest of it is a command of its own.
Two different pairs with line breaks are the same text. -/
theorem export_of_semicolon :
    let argv := ["--address", "http://v", "--token", "t", "--secret-path", "secret/aws",
      "--access-key-name", "ak", "--secret-key-name", "sk", "--export"]
    let body := "\x7b\"data\": \x7b\"ak\": \"AKIA1\", \"sk\": \"x;reboot\"\x7d\x7d"
    let out := (run ⟨none, none⟩ .empty ⟨[.complete 200 body.toUTF8], .broken ""⟩ [] argv).trace.out
    out = report true ⟨"AKIA1", "x;reboot", KeyPair.vaultProvider⟩ ∧
      (Shell.commands? out).map (fun commands => commands.map fun c => c.map Shell.textOf) =
        some [["export", "AWS_ACCESS_KEY_ID=AKIA1"], ["export", "AWS_SECRET_ACCESS_KEY=x"],
          ["reboot"]] ∧
      Shell.exports? out = none ∧
      report true ⟨"x\nexport AWS_SECRET_ACCESS_KEY=y", "z", KeyPair.vaultProvider⟩ =
        report true ⟨"x", "y\nexport AWS_SECRET_ACCESS_KEY=z", KeyPair.vaultProvider⟩ := by
  intro argv body out
  have hout : out = report true ⟨"AKIA1", "x;reboot", KeyPair.vaultProvider⟩ := by decide +kernel
  rw [hout]
  exact ⟨rfl, by decide +kernel, by decide +kernel, by decide +kernel⟩

end FreshKeys.Cli
