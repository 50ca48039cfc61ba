import FreshKeys.Refresh.Session
import FreshKeys.Store.Client

/-!
# Pairs from a store

A vault is a provider whose source is a store. A call that has to lead a refresh makes one request;
the refresh fails when the read takes longer than it may. Here calls are made one after the other,
and each is over before the next one begins.
-/

namespace FreshKeys

open Refresh (Call Effect Provider Way)
open Store (Answer Client Request Script)

/-- A provider and the client it reads through. -/
structure Vault where
  client : Client
  provider : Provider

/-- What one call came to. -/
structure Turn where
  outcome : Outcome
  /-- The request that was sent for it. -/
  request : Option Request
  notes : List Note

namespace Vault

/-- A vault with nothing fetched yet, and one handle over it. -/
def fresh (client : Client) (p : Profile) : Vault := ⟨client, .fresh (.ofProfile p) 1⟩

/-- The way through the handle. -/
def handle : Way := .handle 0

/-- What the refresh that a call leads comes to with an exchange: its reply, unless the exchange
takes longer than a read may. -/
def events (call : Call) (fetchTimeout : Nat) (exchange : Store.Exchange Secret) :
    List Provider.Event :=
  if exchange.elapsed ≤ fetchTimeout then
    [.refresh (.advance exchange.elapsed), .refresh (.answer call exchange.reply)]
  else [.refresh (.advance fetchTimeout), .refresh (.timeOut call)]

/-- What the effects of a call come to; a call that never returns counts as cancelled. -/
def outcomeOf (effects : List Effect) : Outcome :=
  match effects.findSome? Effect.return? with
  | some (_, outcome) => outcome
  | none => .failure Refresh.cancelled

/-- Makes a call, which meets the given answer if it has to send a request. -/
def call (v : Vault) (call : Call) (answer : Answer) : Vault × Turn :=
  let (asked, first) := v.provider.step (.refresh (.join call))
  if (first.findSome? Effect.return?).isSome then
    ({ v with provider := asked }, ⟨outcomeOf first, none, first.filterMap Effect.note?⟩)
  else
    let terms := asked.cache.terms
    let exchange := v.client.read terms.path answer
    let (ended, last) := asked.run (events call terms.fetchTimeout exchange)
    ({ v with provider := ended },
      ⟨outcomeOf last, exchange.request,
        first.filterMap Effect.note? ++ exchange.notes ++ last.filterMap Effect.note?⟩)

/-- Makes calls in one way, numbered from the given one, against a script of answers. -/
def calls (v : Vault) (way : Way) (number : Nat) : Nat → Script → Vault × Script × List Turn
  | 0, script => (v, script, [])
  | times + 1, script =>
    let (next, turn) := v.call ⟨0, number, way⟩ script.next
    let (last, left, turns) := next.calls way (number + 1) times (script.after turn.request)
    (last, left, turn :: turns)

/-- Lets time pass. -/
def wait (v : Vault) (span : Nat) : Vault :=
  { v with provider := (v.provider.step (.refresh (.advance span))).1 }

end Vault

end FreshKeys
