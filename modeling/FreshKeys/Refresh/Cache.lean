import FreshKeys.Journal
import FreshKeys.Profile
import FreshKeys.Refresh.Channel
import FreshKeys.Refresh.Cohort
import FreshKeys.Refresh.Window
import FreshKeys.Reply

/-!
# Coalescing refreshes

A cache keeps the pair that was fetched last. Whoever asks it for a fresh pair joins the refresh in
flight; if there is none, a refresh begins and the caller leads it. One read of the source serves
the whole refresh. When it is over, its outcome is sent over the channel of the refresh, once, and
each follower picks it up there whenever it wakes. A failed refresh changes neither the pair nor
the validity window.

The cache moves by atomic events, in any order. An event that cannot happen changes nothing.
Instants and spans are milliseconds.
-/

namespace FreshKeys.Refresh

/-- The way in which a pair is asked for. Only a handle keeps what it was given. -/
inductive Way where
  | fetch
  | retrieve
  | shared
  | handle (index : Nat)
  deriving DecidableEq, Repr

/-- The handle that is asked, if one is. -/
def Way.handle? : Way → Option Nat
  | .handle index => some index
  | _ => none

/-- One call for a pair: who makes it, which of their calls it is, and how it is made. -/
structure Call where
  caller : Nat
  number : Nat
  way : Way
  deriving DecidableEq, Repr

/-- The fixed terms of a cache. -/
structure Terms where
  path : String
  ttl : Nat
  fetchTimeout : Nat
  deriving DecidableEq, Repr

/-- A refresh: when its read began, and the channel to its followers. -/
structure Cycle where
  startedAt : Nat
  channel : Channel Outcome
  deriving DecidableEq, Repr

/-- A call that has joined a refresh and has not returned, with its place on the channel. -/
structure Seat where
  call : Call
  cycle : Nat
  role : Role
  place : Nat
  deriving DecidableEq, Repr

/-- A cache and everybody who waits for it. -/
structure Cache where
  terms : Terms
  now : Nat
  tracked : TrackedPair
  window : Window
  cohort : Cohort
  /-- All refreshes in the order in which they began. -/
  cycles : List Cycle
  seats : List Seat
  deriving DecidableEq, Repr

/-- What can happen to a cache. -/
inductive Event where
  /-- A call for a fresh pair begins. -/
  | join (call : Call)
  /-- The read that a call leads is answered. -/
  | answer (call : Call) (reply : Reply)
  /-- The read that a call leads has taken too long. -/
  | timeOut (call : Call)
  /-- A call that follows picks up the outcome. -/
  | wake (call : Call)
  /-- A call is given up by its caller. -/
  | drop (call : Call)
  /-- Time passes. -/
  | advance (span : Nat)
  deriving Repr

/-- What an event leads to, apart from the new state. -/
inductive Effect where
  /-- A call joined the refresh with a number. -/
  | joined (call : Call) (role : Role) (cycle : Nat)
  | noted (note : Note)
  | readStarted (path : String)
  /-- The refresh with a number is over, and its read with it; so many calls had followed it. -/
  | finished (cycle : Nat) (outcome : Outcome) (followers : Nat)
  | returned (call : Call) (outcome : Outcome)
  deriving DecidableEq, Repr

/-- The note that an effect is. -/
def Effect.note? : Effect → Option Note
  | .noted note => some note
  | _ => none

/-- The path of the read that an effect starts. -/
def Effect.read? : Effect → Option String
  | .readStarted path => some path
  | _ => none

/-- The call that an effect ends, and what it came to. -/
def Effect.return? : Effect → Option (Call × Outcome)
  | .returned call outcome => some (call, outcome)
  | _ => none

/-- Why a refresh failed that took too long. -/
def timedOut (span : Nat) : Failure :=
  .sourceUnavailable ("secret read timed out after " ++ Text.spanOfMillis span)

/-- Why a refresh failed that its leader gave up. -/
def cancelled : Failure := .sourceUnavailable "credential refresh was cancelled"

/-- Why a call failed that followed a refresh and was not sent its outcome. -/
def abandoned : Failure :=
  .sourceUnavailable "credential refresh was abandoned before completing"

/-- What a follower returns on what it is given. -/
def Receipt.outcome : Receipt Outcome → Outcome
  | .message outcome => outcome
  | .lagged _ => .failure abandoned
  | .closed => .failure abandoned

/-- The refresh after its leader has sent an outcome, if anybody is there to receive it. -/
def Cycle.finish (cycle : Cycle) (hasReceiver : Bool) (outcome : Outcome) : Cycle :=
  { cycle with channel := (cycle.channel.send hasReceiver outcome).close }

namespace Cache

/-- An empty cache: nothing fetched, nobody waiting. -/
def fresh (terms : Terms) (accessKeyName secretKeyName : String) : Cache where
  terms
  now := 0
  tracked := .named accessKeyName secretKeyName
  window := .unopened
  cohort := .idle
  cycles := []
  seats := []

/-- The empty cache of a profile. -/
def ofProfile (p : Profile) : Cache :=
  fresh ⟨p.secretPath, p.ttl, p.fetchTimeout⟩ p.accessKeyName p.secretKeyName

/-- Whether what was fetched last is no longer valid. -/
def isExpired (c : Cache) : Bool := c.window.isExpired c.now

/-- The pair as it is, without a refresh. -/
def snapshot (c : Cache) : KeyPair := c.tracked.pair

/-- The seat of a call. -/
def seat? (c : Cache) (call : Call) : Option Seat := c.seats.find? fun s => s.call == call

/-- The seat of a call that has a role. -/
def seatAs? (c : Cache) (role : Role) (call : Call) : Option Seat :=
  c.seats.find? fun s => s.call == call && s.role == role

/-- Whether somebody still waits as a follower of a refresh. -/
def isFollowed (c : Cache) (cycle : Nat) : Bool :=
  c.seats.any fun s => s.role == .follower && s.cycle == cycle

/-- The place of a call that joins a refresh now. -/
def place (c : Cache) (cycle : Nat) : Nat :=
  (c.cycles[cycle]?.map fun k => k.channel.subscribe).getD 0

/-- What a follower is given on its channel; nothing if it has to wait. -/
def receipt? (c : Cache) (seat : Seat) : Option (Receipt Outcome) :=
  c.cycles[seat.cycle]?.bind fun k => k.channel.receive? seat.place

/-- Whether the read of a refresh has used up its time. -/
def isDue (c : Cache) (cycle : Nat) : Bool :=
  c.cycles[cycle]?.any fun k => decide (k.startedAt + c.terms.fetchTimeout ≤ c.now)

/-- The cache without the seat of a call. -/
def leave (c : Cache) (call : Call) : Cache :=
  { c with seats := c.seats.filter fun s => s.call != call }

/-- Takes a call in: as a follower, or as the leader of a refresh that begins with it. -/
def join (c : Cache) (call : Call) : Cache × List Effect :=
  let (cohort, role, cycle) := c.cohort.join c.cycles.length
  let seated := { c with cohort, seats := c.seats ++ [⟨call, cycle, role, c.place cycle⟩] }
  match role with
  | .follower => (seated, [.joined call .follower cycle])
  | .leader =>
    ({ seated with cycles := c.cycles ++ [⟨c.now, .opened⟩] },
      [.joined call .leader cycle, .noted (.refreshing c.terms.path),
        .readStarted c.terms.path])

/-- Ends the refresh in flight: the cohort is empty then, and if it had followers, the outcome is
sent to them. -/
def finish (c : Cache) (outcome : Outcome) : Cache :=
  { c with
    cohort := .idle
    cycles :=
      match c.cohort.signal with
      | some cycle =>
        c.cycles.modify cycle fun k =>
          k.finish (decide (0 < c.cohort.followers) && c.isFollowed cycle) outcome
      | none => c.cycles }

/-- The note of a refresh that had followers, when none of them waits any more. -/
def abandonment (c : Cache) : List Effect :=
  match c.cohort.signal with
  | some cycle =>
    if 0 < c.cohort.followers && !c.isFollowed cycle then
      [.noted (.followersGone c.cohort.followers)]
    else []
  | none => []

/-- Takes over what was fetched, if it is a secret with both tracked fields. The window is extended
as on a clock without a last instant: a span is at most `Profile.maxTtl`, 365 days, and a clock goes
on for longer than that, so `Window.extendWithin` never finds an end that cannot be told, nor is
there a line in the journal that says so. -/
def absorb (c : Cache) : Except Failure Secret → Cache × Outcome
  | .error failure => (c, .failure failure)
  | .ok secret =>
    match c.tracked.merge secret with
    | .error failure => (c, .failure failure)
    | .ok tracked =>
      ({ c with tracked, window := c.window.extend c.terms.ttl c.now }, .pair tracked.pair)

/-- The note at the end of a refresh. -/
def ending (followers : Nat) : Outcome → Note
  | .pair p => .refreshed p.maskedId followers
  | .failure failure => .refreshFailed failure.message followers

/-- Ends the refresh that a call leads with what was fetched; the call returns. -/
def commit (c : Cache) (seat : Seat) (fetched : Except Failure Secret) : Cache × List Effect :=
  let (absorbed, outcome) := c.absorb fetched
  ((absorbed.finish outcome).leave seat.call,
    c.abandonment ++
      [.finished seat.cycle outcome c.cohort.followers,
        .noted (ending c.cohort.followers outcome), .returned seat.call outcome])

/-- Ends the refresh that a call leads because the call is given up. -/
def cancel (c : Cache) (seat : Seat) : Cache × List Effect :=
  ((c.finish (.failure cancelled)).leave seat.call,
    c.abandonment ++
      [.finished seat.cycle (.failure cancelled) c.cohort.followers,
        .noted (.refreshCancelled c.cohort.followers)])

/-- What an event does. -/
def step (c : Cache) : Event → Cache × List Effect
  | .join call =>
    match c.seat? call with
    | none => c.join call
    | some _ => (c, [])
  | .answer call reply =>
    match c.seatAs? .leader call with
    | some seat => c.commit seat (reply.secret? c.terms.path)
    | none => (c, [])
  | .timeOut call =>
    match c.seatAs? .leader call with
    | some seat =>
      if c.isDue seat.cycle then c.commit seat (.error (timedOut c.terms.fetchTimeout)) else (c, [])
    | none => (c, [])
  | .wake call =>
    match c.seatAs? .follower call with
    | some seat =>
      match c.receipt? seat with
      | some receipt => (c.leave call, [.returned call receipt.outcome])
      | none => (c, [])
    | none => (c, [])
  | .drop call =>
    match c.seat? call with
    | some seat =>
      match seat.role with
      | .leader => c.cancel seat
      | .follower => (c.leave call, [])
    | none => (c, [])
  | .advance span => ({ c with now := c.now + span }, [])

/-- What events do, one after the other. -/
def run (c : Cache) : List Event → Cache × List Effect
  | [] => (c, [])
  | event :: rest =>
    let (next, effects) := c.step event
    let (last, more) := next.run rest
    (last, effects ++ more)

end Cache

end FreshKeys.Refresh
