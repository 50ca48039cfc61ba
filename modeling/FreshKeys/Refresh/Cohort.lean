/-!
# Cohorts

The callers attached to the refresh in flight are its cohort. The first to join leads, everybody
after them follows until the refresh is finished; then the cohort is empty again. Refreshes are
numbered in the order in which they begin.
-/

namespace FreshKeys.Refresh

/-- What a caller is to a refresh. -/
inductive Role where
  | leader
  | follower
  deriving DecidableEq, Repr

/-- The callers attached to the refresh in flight, and its number, under which its channel is
found. -/
structure Cohort where
  waiters : Nat
  signal : Option Nat
  deriving DecidableEq, Repr

namespace Cohort

/-- Nobody is waiting. -/
def idle : Cohort := ⟨0, none⟩

/-- Joins a caller: to the refresh in flight if there is one, else to a new one with the given
number. Says which refresh the caller joined, and as what. -/
def join (c : Cohort) (next : Nat) : Cohort × Role × Nat :=
  match c.signal with
  | some cycle =>
    if 0 < c.waiters then ({ c with waiters := c.waiters + 1 }, .follower, cycle)
    else (⟨1, some next⟩, .leader, next)
  | none => (⟨1, some next⟩, .leader, next)

/-- How many callers follow. -/
def followers (c : Cohort) : Nat := c.waiters - 1

end Cohort

end FreshKeys.Refresh
