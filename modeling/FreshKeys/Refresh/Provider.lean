import FreshKeys.Refresh.Cache

/-!
# Providers and handles

A provider is a cache with consumers' handles over it. A handle has a slot for the pair it was
given last, and hands that out as long as the provider's window is open; otherwise it asks the
provider for a fresh pair and keeps what it gets. A failure leaves the slot as it is.
-/

namespace FreshKeys.Refresh

/-- A provider and the slots of its handles. -/
structure Provider where
  cache : Cache
  slots : List (Option KeyPair)
  deriving DecidableEq, Repr

/-- What can happen to a provider. -/
inductive Provider.Event where
  /-- Something happens to its cache; a call that begins through a handle asks the handle first. -/
  | refresh (event : Refresh.Event)
  /-- A handle is told to forget its pair. -/
  | expire (handle : Nat)
  deriving Repr

namespace Provider

/-- A provider with an empty cache and empty slots. -/
def fresh (cache : Cache) (handles : Nat) : Provider := ⟨cache, List.replicate handles none⟩

/-- Whether the last pair is no longer valid. -/
def isExpired (p : Provider) : Bool := p.cache.isExpired

/-- The pair that a handle may hand out without asking. -/
def stored? (p : Provider) (handle : Nat) : Option KeyPair :=
  if p.isExpired then none else p.slots[handle]?.join

/-- Whether a handle would have to ask. -/
def isHandleExpired (p : Provider) (handle : Nat) : Bool := (p.stored? handle).isNone

/-- Puts a pair that a call returned into the slot of its handle. -/
def keep (slots : List (Option KeyPair)) : Effect → List (Option KeyPair)
  | .returned call (.pair pair) =>
    match call.way.handle? with
    | some handle => slots.set handle (some pair)
    | none => slots
  | _ => slots

/-- Lets an event happen to the cache; what it returns goes into the slots. -/
def refresh (p : Provider) (event : Refresh.Event) : Provider × List Effect :=
  let (cache, effects) := p.cache.step event
  (⟨cache, effects.foldl keep p.slots⟩, effects)

/-- Begins a call. Through a handle it returns at once if the handle has a valid pair. -/
def ask (p : Provider) (call : Call) : Provider × List Effect :=
  match call.way.handle? with
  | none => p.refresh (.join call)
  | some handle =>
    match p.stored? handle with
    | some pair => (p, [.returned call (.pair pair)])
    | none =>
      let (next, effects) := p.refresh (.join call)
      (next, .noted .retrieving :: effects)

/-- What an event does. A call that is under way cannot begin again. -/
def step (p : Provider) : Event → Provider × List Effect
  | .refresh (.join call) =>
    match p.cache.seat? call with
    | none => p.ask call
    | some _ => (p, [])
  | .refresh event => p.refresh event
  | .expire handle => ({ p with slots := p.slots.set handle none }, [])

/-- What events do, one after the other. -/
def run (p : Provider) : List Event → Provider × List Effect
  | [] => (p, [])
  | event :: rest =>
    let (next, effects) := p.step event
    let (last, more) := next.run rest
    (last, effects ++ more)

end Provider

end FreshKeys.Refresh
