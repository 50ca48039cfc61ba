/-!
# Validity windows

A window is open until an instant, that instant included. It opens with the first success and is
only ever extended: its end is the greatest end it was ever given. Instants are milliseconds.
-/

namespace FreshKeys.Refresh

/-- How long what was fetched last stays valid; no end before the first success. -/
structure Window where
  validUntil : Option Nat
  deriving DecidableEq, Repr

namespace Window

/-- The window before the first success. -/
def unopened : Window := ⟨none⟩

/-- Whether a window is over, or has never been open. -/
def isExpired (w : Window) (now : Nat) : Bool :=
  match w.validUntil with
  | some last => decide (last < now)
  | none => true

/-- Extends a window to a span after now, unless it ends later already. -/
def extend (w : Window) (ttl now : Nat) : Window :=
  match w.validUntil with
  | some last => ⟨some (max last (now + ttl))⟩
  | none => ⟨some (now + ttl)⟩

/-- Extends a window on a clock with a last instant; says whether the new end can be told on it,
and leaves the window alone if not. -/
def extendWithin (latest : Nat) (w : Window) (ttl now : Nat) : Window × Bool :=
  if now + ttl ≤ latest then (w.extend ttl now, true) else (w, false)

/-- An extended window ends at the later of the end it had and the one it is given. -/
theorem validUntil_extend (w : Window) (ttl now : Nat) :
    (w.extend ttl now).validUntil = some (max (w.validUntil.getD 0) (now + ttl)) := by
  obtain ⟨last⟩ := w
  cases last <;> simp [extend]

end Window

end FreshKeys.Refresh
