import FreshKeys.Proofs.Refresh.SingleFlight
import Mathlib.Data.List.Induction

/-!
# What incidents say of a refresh

The events of a run with what they led to say all that the journal has to tell, the journal itself
left aside: who began a refresh, who followed it and has not been given up, when it ended and what
it came to. From that a refresh has a block of lines. The first is that of its beginning; the
others are there once it has ended, and no later incident changes them.
-/

namespace FreshKeys.Refresh

/-- An event of a run, with what it led to. -/
structure Incident where
  event : Event
  effects : List Effect

namespace Effect

/-- The call that begins the refresh with a number as its leader. -/
def leaderOf? (cycle : ℕ) : Effect → Option Call
  | .joined call .leader k => if k = cycle then some call else none
  | _ => none

/-- The call that joins the refresh with a number as a follower. -/
def followerOf? (cycle : ℕ) : Effect → Option Call
  | .joined call .follower k => if k = cycle then some call else none
  | _ => none

/-- What the refresh with a number comes to, at its end. -/
def outcomeOf? (cycle : ℕ) : Effect → Option Outcome
  | .finished k outcome _ => if k = cycle then some outcome else none
  | _ => none

end Effect

namespace Incident

/-- Whether a call is given up. -/
def drops (m : Incident) (call : Call) : Bool :=
  match m.event with
  | .drop other => other == call
  | _ => false

/-- What the refresh with a number comes to, if it ends. -/
def outcome? (cycle : ℕ) (m : Incident) : Option Outcome :=
  m.effects.findSome? (Effect.outcomeOf? cycle)

/-- Of the calls that follow the refresh with a number, those that are left afterwards. -/
def attend (cycle : ℕ) (calls : List Call) (m : Incident) : List Call :=
  (calls.filter fun call => !m.drops call) ++ m.effects.filterMap (Effect.followerOf? cycle)

end Incident

namespace Account

/-- All that incidents led to. -/
def effects (past : List Incident) : List Effect := past.flatMap Incident.effects

/-- The lines that were written into the journal. -/
def lines (past : List Incident) : List Line :=
  ((effects past).filterMap Effect.note?).map Note.line

/-- The call that began the refresh with a number. -/
def leader? (cycle : ℕ) (past : List Incident) : Option Call :=
  (effects past).findSome? (Effect.leaderOf? cycle)

/-- How many calls have joined the refresh with a number as followers. -/
def joined (cycle : ℕ) (past : List Incident) : ℕ :=
  (effects past).countP (Effect.isFollowerOf cycle)

/-- The calls that have joined the refresh with a number as followers and have not been given up
since. -/
def attending (cycle : ℕ) (past : List Incident) : List Call :=
  past.foldl (Incident.attend cycle) []

/-- The line at the beginning of a refresh. -/
def opening (path : String) : Line := ⟨.debug, "refreshing credentials", [("path", path)]⟩

/-- The line of a refresh whose followers have all been given up. -/
def desertion (followers : ℕ) : Line :=
  ⟨.debug, "all followers left before the refresh finished", [("followers", toString followers)]⟩

/-- The last line of a refresh: that its leader was given up, or else what it came to. -/
def verdict (isCancelled : Bool) (followers : ℕ) (outcome : Outcome) : Line :=
  if isCancelled then
    ⟨.warn, "credential refresh cancelled", [("followers", toString followers)]⟩
  else
    match outcome with
    | .pair pair =>
      ⟨.info, "credentials refreshed",
        [("access_key_id", pair.maskedId), ("followers", toString followers)]⟩
    | .failure failure =>
      ⟨.warn, "credential refresh failed",
        [("error", failure.message), ("followers", toString followers)]⟩

/-- The lines at the end of the refresh with a number, which comes to an outcome in an incident. -/
def ending (cycle : ℕ) (past : List Incident) (m : Incident) (outcome : Outcome) : List Line :=
  let followers := joined cycle past
  (if 0 < followers && (attending cycle past).isEmpty then [desertion followers] else []) ++
    [verdict ((leader? cycle past).any m.drops) followers outcome]

/-- The lines at the end of the refresh with a number, if it ends in one of the incidents that
follow a past. -/
def closingFrom (cycle : ℕ) (past : List Incident) : List Incident → List Line
  | [] => []
  | m :: rest =>
    match m.outcome? cycle with
    | some outcome => ending cycle past m outcome
    | none => closingFrom cycle (past ++ [m]) rest

/-- The lines at the end of the refresh with a number; none if it has not ended. -/
def closing (cycle : ℕ) (past : List Incident) : List Line := closingFrom cycle [] past

/-- Whether a line begins a block. -/
def isOpening (line : Line) : Bool := line.message == "refreshing credentials"

/-- The journal of so many refreshes that read a path: their blocks. -/
def blocks (path : String) (count : ℕ) (past : List Incident) : List Line :=
  (List.range count).flatMap fun cycle => opening path :: closing cycle past

/-- What was written in incidents, one after the other. -/
theorem lines_append (past later : List Incident) :
    lines (past ++ later) = lines past ++ lines later := by
  simp [lines, effects]

/-- One incident adds what it led to. -/
theorem effects_append (past : List Incident) (m : Incident) :
    effects (past ++ [m]) = effects past ++ m.effects := by
  simp [effects]

/-- One incident changes who attends: some are given up and some join. -/
theorem attending_append (cycle : ℕ) (past : List Incident) (m : Incident) :
    attending cycle (past ++ [m]) = m.attend cycle (attending cycle past) := by
  simp [attending, List.foldl_append]

/-- Nobody attends a refresh that nobody has followed. -/
theorem attending_eq_nil {cycle : ℕ} {past : List Incident}
    (h : ∀ call, .joined call .follower cycle ∉ effects past) : attending cycle past = [] := by
  induction past using List.reverseRecOn with
  | nil => rfl
  | append_singleton past m ih =>
    simp only [effects_append, List.mem_append, not_or] at h
    have hnobody : m.effects.filterMap (Effect.followerOf? cycle) = [] := by
      refine List.filterMap_eq_nil_iff.mpr fun e he => ?_
      unfold Effect.followerOf?
      split
      · split
        · rename_i call k hk
          exact absurd (hk ▸ he) (h call).2
        · rfl
      · rfl
    rw [attending_append, ih fun call => (h call).1, Incident.attend, hnobody]
    rfl

/-- The refresh with a number ends in an incident exactly when it has an outcome there. -/
theorem outcome?_eq_none_iff {cycle : ℕ} {m : Incident} :
    m.outcome? cycle = none ↔ cycle ∉ m.effects.filterMap Effect.ended? := by
  have hone : ∀ e : Effect, e.outcomeOf? cycle = none ↔ e.ended? ≠ some cycle := by
    intro e
    cases e with
    | finished k outcome followers => simp [Effect.outcomeOf?, Effect.ended?]
    | _ => simp [Effect.outcomeOf?, Effect.ended?]
  simp [Incident.outcome?, hone]

/-- As long as a refresh has not ended, incidents only add to its past. -/
theorem closingFrom_append {cycle : ℕ} {past between later : List Incident}
    (h : ∀ m ∈ between, m.outcome? cycle = none) :
    closingFrom cycle past (between ++ later) = closingFrom cycle (past ++ between) later := by
  induction between generalizing past with
  | nil => simp
  | cons m rest ih =>
    obtain ⟨hm, hrest⟩ := List.forall_mem_cons.mp h
    simp [closingFrom, hm, ih hrest]

/-- Once a refresh has ended, its lines stay as they are. -/
theorem closingFrom_of_ended {cycle : ℕ} {past between : List Incident}
    (h : ∃ m ∈ between, m.outcome? cycle ≠ none) (later : List Incident) :
    closingFrom cycle past (between ++ later) = closingFrom cycle past between := by
  induction between generalizing past with
  | nil => simp at h
  | cons m rest ih =>
    cases hm : m.outcome? cycle with
    | some outcome => simp [closingFrom, hm]
    | none =>
      have hrest : ∃ m ∈ rest, m.outcome? cycle ≠ none := by simpa [hm] using h
      simp [closingFrom, hm, ih hrest]

/-- A refresh has ended exactly when one of the incidents is its end. -/
theorem mem_ended_iff {cycle : ℕ} {past : List Incident} :
    cycle ∈ (effects past).filterMap Effect.ended? ↔ ∃ m ∈ past, m.outcome? cycle ≠ none := by
  simp only [ne_eq, outcome?_eq_none_iff, not_not, effects, List.filterMap_flatMap,
    List.mem_flatMap]

/-- The lines of a refresh that has not ended before an incident. -/
theorem closing_append_of_unended {cycle : ℕ} {past : List Incident}
    (h : cycle ∉ (effects past).filterMap Effect.ended?) (m : Incident) :
    closing cycle (past ++ [m]) =
      match m.outcome? cycle with
      | some outcome => ending cycle past m outcome
      | none => [] := by
  have hgoing : ∀ m ∈ past, m.outcome? cycle = none := by
    simpa only [mem_ended_iff, not_exists, not_and, ne_eq, not_not] using h
  rw [closing, closingFrom_append hgoing, List.nil_append]
  rfl

/-- The lines of a refresh that has ended stay as they are in any incident. -/
theorem closing_append_of_ended {cycle : ℕ} {past : List Incident}
    (h : cycle ∈ (effects past).filterMap Effect.ended?) (m : Incident) :
    closing cycle (past ++ [m]) = closing cycle past :=
  closingFrom_of_ended (mem_ended_iff.mp h) [m]

/-- The lines of a refresh stay as they are in an incident that does not end it. -/
theorem closing_append_of_other {cycle : ℕ} {m : Incident}
    (h : cycle ∉ m.effects.filterMap Effect.ended?) (past : List Incident) :
    closing cycle (past ++ [m]) = closing cycle past := by
  by_cases hended : cycle ∈ (effects past).filterMap Effect.ended?
  · exact closing_append_of_ended hended m
  · have hgoing : ∀ m ∈ past, m.outcome? cycle = none := by
      simpa only [mem_ended_iff, not_exists, not_and, ne_eq, not_not] using hended
    have hopen : closingFrom cycle [] (past ++ []) = [] := closingFrom_append hgoing
    rw [List.append_nil] at hopen
    rw [closing_append_of_unended hended, outcome?_eq_none_iff.mpr h, closing, hopen]

/-- A refresh that has not ended has no last lines, and one that has ended has some. -/
theorem closing_eq_nil_iff {cycle : ℕ} {past : List Incident} :
    closing cycle past = [] ↔ cycle ∉ (effects past).filterMap Effect.ended? := by
  induction past using List.reverseRecOn with
  | nil => simp [closing, closingFrom, effects]
  | append_singleton past m ih =>
    by_cases hended : cycle ∈ (effects past).filterMap Effect.ended?
    · have hnot : ¬ closing cycle past = [] := fun hnil => ih.mp hnil hended
      simp only [closing_append_of_ended hended, hnot, effects_append, List.filterMap_append,
        List.mem_append, hended, true_or, not_true_eq_false]
    · simp only [closing_append_of_unended hended, effects_append, List.filterMap_append,
        List.mem_append, hended, false_or, ← outcome?_eq_none_iff]
      cases m.outcome? cycle <;> simp [ending]

/-- The block of another refresh comes last. -/
theorem blocks_succ (path : String) (count : ℕ) (past : List Incident) :
    blocks path (count + 1) past = blocks path count past ++ opening path :: closing count past := by
  simp [blocks, List.range_succ, List.flatMap_append]

/-- An incident that ends none of them leaves the blocks as they are. -/
theorem blocks_append (path : String) (count : ℕ) (past : List Incident) (m : Incident)
    (h : ∀ cycle < count, cycle ∉ m.effects.filterMap Effect.ended?) :
    blocks path count (past ++ [m]) = blocks path count past := by
  refine List.flatMap_congr fun cycle hcycle => ?_
  rw [closing_append_of_other (h cycle (List.mem_range.mp hcycle))]

/-- No line at the end of a refresh begins a block. -/
theorem isOpening_closingFrom {cycle : ℕ} {past between : List Incident} {line : Line}
    (h : line ∈ closingFrom cycle past between) : isOpening line = false := by
  induction between generalizing past with
  | nil => cases h
  | cons m rest ih =>
    unfold closingFrom at h
    split at h
    · rename_i outcome houtcome
      rcases List.mem_append.mp h with hgone | hlast
      · split at hgone
        · rw [List.mem_singleton.mp hgone]
          rfl
        · cases hgone
      · rw [List.mem_singleton.mp hlast]
        unfold verdict
        split
        · rfl
        · cases outcome <;> rfl
    · exact ih h

/-- Each block has one line that begins it. -/
theorem countP_blocks (path : String) (count : ℕ) (past : List Incident) :
    (blocks path count past).countP isOpening = count := by
  induction count with
  | zero => rfl
  | succ count ih =>
    have hclosing : (closing count past).countP isOpening = 0 :=
      List.countP_eq_zero.mpr fun line hline => by simp [isOpening_closingFrom hline]
    have hopening : isOpening (opening path) = true := rfl
    rw [blocks_succ, List.countP_append, ih, List.countP_cons_of_pos hopening, hclosing]

end Account

end FreshKeys.Refresh
