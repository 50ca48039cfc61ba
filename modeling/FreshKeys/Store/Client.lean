import FreshKeys.Files
import FreshKeys.Journal
import FreshKeys.Profile
import FreshKeys.Reply
import FreshKeys.Store.CertificateFile
import FreshKeys.Store.KvEngine
import FreshKeys.Store.Response
import FreshKeys.Store.Status
import FreshKeys.Store.Url

/-!
# The client of a store

One read of the store is one request. Status 200 brings an answer, 204 and 404 say that there is
nothing, and everything else is a failure. A request whose address or token cannot be put on the
wire is never sent. Answers are data here: the client says what it sends and what it makes of an
answer, and nothing in it talks to a network.
-/

namespace FreshKeys.Store

open Json (Fault Node)

/-- A client that stands ready; the time a request may take is in milliseconds. -/
structure Client where
  address : String
  token : String
  kvV2 : Bool
  timeout : Nat
  deriving DecidableEq, Repr

/-- A request for an address, with the token that goes with it. -/
structure Request where
  url : Url
  token : String
  deriving DecidableEq, Repr

/-- What a request meets: what one send yields, as far as the client looks at it. Headers are left
out, and with them the place that a redirect leads to: redirects are followed, if at all, by whoever
sends. An answer comes at once, or never if it is silent, and a body comes whole. -/
inductive Answer where
  | complete (status : Nat) (body : ByteArray)
  /-- No answer comes, for a reason in the words of the connection. -/
  | broken (reason : String)
  /-- No answer ever comes, and nothing says so. -/
  | silent

/-- What came of asking the store for something. -/
structure Exchange (α : Type) where
  /-- The request, if one could be sent. -/
  request : Option Request
  result : Except Causes (Option α)
  /-- The time it took, in milliseconds. -/
  elapsed : Nat
  notes : List Note

/-- Whether a character may stand in a token that is sent. -/
def isSendable (c : Char) : Bool := c == '\t' || (0x20 ≤ c.toNat && c.toNat != 0x7F)

namespace Client

/-- The client for a profile; its certificate file is read once. Why a file holds no certificate is
for the library that reads it to say; the words here stand for its own. -/
def ofProfile (files : Files) (p : Profile) : Except Causes Client :=
  let client : Client := ⟨p.address, p.token, p.kvV2, p.timeout⟩
  match p.caFile with
  | none => .ok client
  | some path =>
    match files.readBytes path with
    | .error e => .error ["failed to read CA file: " ++ Text.quote path, e.message]
    | .ok bytes =>
      if CertificateFile.isGood bytes then .ok client
      else .error ["failed to build HTTP client", "no certificate"]

/-- The address of a request as it is written, before it is read. -/
def addressOf (client : Client) (path : String) : String :=
  client.address ++ "/v1/" ++ Text.trimSlashesStart path

/-- The request for a path, if it can be sent. A host whose name has characters outside ASCII is
never sent to: such a name is not translated here. -/
def request? (client : Client) (path : String) : Option Request :=
  if client.token.toList.all isSendable then
    (Url.parse? (client.addressOf path)).map fun url => ⟨url, client.token⟩
  else none

/-- The warnings worth a note. -/
def warningNotes (path : String) : Option (List String) → List Note
  | none | some [] => []
  | some warnings => [.warned path warnings]

/-- The reason of a body that is no answer. Where the text is no JSON at all, the words stand for
those of the library that reads it, which says what it met and where. -/
def faultText (fault : Fault) : String := fault.message?.getD "malformed JSON"

/-- What is made of a body that comes with status 200. -/
def readBody {α : Type} (readData : Node → Except Fault α) (path : String) (body : ByteArray) :
    Except Causes (Option α) × List Note :=
  match (Node.Document.ofBytes body).read (Response.ofNode readData) with
  | .ok response => (.ok response.data, warningNotes path response.warnings)
  | .error fault => (.error ["failed to parse response", faultText fault], [])

/-- What is made of an answer with a status. -/
def readAnswer {α : Type} (readData : Node → Except Fault α) (path : String) (status : Nat)
    (body : ByteArray) : Except Causes (Option α) × List Note :=
  if status == 200 then readBody readData path body
  else if status == 204 || status == 404 then (.ok none, [])
  else if status == 403 then
    (.error ["forbidden: token may be invalid or insufficient permissions"], [])
  else
    (.error
      ["request failed: " ++ Status.describe status ++ " - " ++ Text.trim (Text.lossy body)], [])

/-- The causes of a request that failed. -/
def requestFailed (client : Client) (path reason : String) : Causes :=
  ["request to " ++ client.addressOf path ++ " failed", reason]

/-- Asks for what is under a path, and meets the given answer if the request is sent. Why one cannot
be sent, and that it has taken too long, are for the library that sends it to say; the words here
stand for its own. -/
def get {α : Type} (readData : Node → Except Fault α) (client : Client) (path : String)
    (answer : Answer) : Exchange α :=
  match client.request? path with
  | none => ⟨none, .error (client.requestFailed path "no such request"), 0, []⟩
  | some request =>
    match answer with
    | .complete status body =>
      let (result, notes) := readAnswer readData path status body
      ⟨some request, result, 0, notes⟩
    | .broken reason => ⟨some request, .error (client.requestFailed path reason), 0, []⟩
    | .silent =>
      ⟨some request, .error (client.requestFailed path "timed out"), client.timeout, []⟩

/-- Reads the secret at a path, and meets the given answer if the request is sent. -/
def read (client : Client) (path : String) (answer : Answer) : Exchange Secret :=
  let target := apiPath client.kvV2 path
  let exchange := client.get Response.readSecret target answer
  { exchange with
    result := exchange.result.map fun payload => payload.bind (unwrap client.kvV2)
    notes := .reading target :: exchange.notes }

end Client

/-- What a read of a secret came to, as a source's reply. -/
def Exchange.reply (exchange : Exchange Secret) : Reply :=
  match exchange.result with
  | .ok (some secret) => .secret secret
  | .ok none => .nothing
  | .error causes => .failed causes

/-- What a store answers to successive requests, and to all that follow them. -/
structure Script where
  answers : List Answer
  afterwards : Answer

namespace Script

/-- The answer to the next request. -/
def next (script : Script) : Answer := script.answers.head?.getD script.afterwards

/-- What is left after a request, if one was sent. -/
def after (script : Script) (request : Option Request) : Script :=
  if request.isSome then { script with answers := script.answers.tail } else script

/-- Asks one and the same thing again and again. -/
def exchanges {α : Type} (ask : Answer → Exchange α) : Nat → Script → List (Exchange α)
  | 0, _ => []
  | times + 1, script =>
    let exchange := ask script.next
    exchange :: exchanges ask times (script.after exchange.request)

end Script

end FreshKeys.Store
