/-!
# Channels

A channel carries messages from one sender to many receivers. It holds only the last message: a
receiver that has not taken a message when the next one is sent has missed it. Whoever subscribes
is given the messages that are sent from then on, also after the sender is gone.
-/

namespace FreshKeys.Refresh

/-- The messages that were sent over a channel, oldest first, and whether its sender is there. -/
structure Channel (α : Type) where
  sent : List α
  isOpen : Bool
  deriving DecidableEq, Repr

/-- What a receiver is given. -/
inductive Receipt (α : Type) where
  | message (message : α)
  /-- The next so many messages are held no more. -/
  | lagged (missed : Nat)
  /-- There is no next message, and no sender. -/
  | closed
  deriving DecidableEq, Repr

namespace Channel

variable {α : Type}

/-- How many messages are held. -/
def capacity : Nat := 1

/-- A channel over which nothing has been sent. -/
def opened : Channel α := ⟨[], true⟩

/-- The place of a receiver that subscribes now: how many messages it is not given. -/
def subscribe (channel : Channel α) : Nat := channel.sent.length

/-- Sends a message, if there is a receiver for it. -/
def send (channel : Channel α) (hasReceiver : Bool) (message : α) : Channel α :=
  if hasReceiver then { channel with sent := channel.sent ++ [message] } else channel

/-- The channel after its sender has gone. -/
def close (channel : Channel α) : Channel α := { channel with isOpen := false }

/-- What a receiver at a place is given; nothing if it has to wait. -/
def receive? (channel : Channel α) (place : Nat) : Option (Receipt α) :=
  if place + capacity < channel.sent.length then
    some (.lagged (channel.sent.length - capacity - place))
  else
    match channel.sent[place]? with
    | some message => some (.message message)
    | none => if channel.isOpen then none else some .closed

/-- Nothing comes over an open channel before something is sent. -/
@[simp] theorem receive?_opened : (opened : Channel α).receive? 0 = none := rfl

/-- The only message of a channel is held for whoever subscribed before it. -/
@[simp] theorem receive?_singleton (message : α) (isOpen : Bool) :
    (⟨[message], isOpen⟩ : Channel α).receive? 0 = some (.message message) := rfl

end Channel

end FreshKeys.Refresh
