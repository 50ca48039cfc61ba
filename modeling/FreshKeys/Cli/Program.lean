import FreshKeys.Cli.Sources
import FreshKeys.Registry

/-!
# The program

A run finds its settings, checks them, creates the provider, fetches one pair and reports it. The
first of these that fails ends the run with an error, and nothing has been reported then. A program
that watches goes on: at every tick it fetches again if the pair is no longer valid, and failures
are passed over.
-/

namespace FreshKeys.Cli

open Store (Answer Request Script)

/-- The first thing that went wrong in a run. -/
inductive RunError where
  | source (error : SourceError)
  | settings (rejection : Rejection)
  | creation (error : CreationError)
  | fetch (failure : Failure)
  deriving DecidableEq, Repr

/-- The causes of a run's error. -/
def RunError.causes : RunError → Causes
  | .source e => e.causes
  | .settings r => ["invalid provider configuration", r.message]
  | .creation e => [e.message]
  | .fetch f => [f.message]

/-- A text with its lines after the first one indented. -/
def indentLines (indent text : String) : String :=
  String.ofList (text.toList.flatMap fun c => if c = '\n' then '\n' :: indent.toList else [c])

/-- The lines of the causes below the outermost one; several are numbered from zero. -/
def causeLines : Causes → String
  | [] => ""
  | [cause] => "\n    " ++ indentLines "    " cause
  | causes =>
    String.join (causes.zipIdx.map fun (cause, i) =>
      "\n    " ++ toString i ++ ": " ++ indentLines "       " cause)

/-- The text of an error, its causes below it. -/
def errorText : Causes → String
  | [] => "Error: "
  | [outer] => "Error: " ++ outer
  | outer :: inner => "Error: " ++ outer ++ "\n\nCaused by:" ++ causeLines inner

/-- What is printed for a pair: two commands for a shell, or one line that shows no secret. -/
def report (exporting : Bool) (pair : KeyPair) : String :=
  if exporting then
    "export AWS_ACCESS_KEY_ID=" ++ pair.accessKeyId ++ "\n" ++
      "export AWS_SECRET_ACCESS_KEY=" ++ pair.secretAccessKey ++ "\n"
  else pair.providerName ++ " " ++ pair.maskedId ++ "\n"

/-- What is printed for the version. -/
def versionText : String := "vault-credentials 0.1.0\n"

/-- The provider of a run. -/
def provider (files : Files) (a : Arguments) : Except RunError Vault := do
  let settings ← (a.settings files).mapError .source
  let profile ← (Profile.ofSettings files settings).mapError .settings
  (Registry.create files a.provider profile).mapError .creation

/-- A run that goes on: its provider, the answers that are left, and the number of its next call. -/
structure Watcher where
  vault : Vault
  script : Script
  number : Nat

/-- What can be seen of a run. -/
structure Trace where
  out : String
  requests : List Request

/-- Nothing can be seen. -/
def Trace.empty : Trace := ⟨"", []⟩

/-- One trace after the other. -/
def Trace.append (a b : Trace) : Trace := ⟨a.out ++ b.out, a.requests ++ b.requests⟩

namespace Watcher

/-- Fetches a pair through the handle. -/
def fetch (w : Watcher) : Watcher × Turn :=
  let (vault, turn) := w.vault.call ⟨0, w.number, Vault.handle⟩ w.script.next
  (⟨vault, w.script.after turn.request, w.number + 1⟩, turn)

/-- What is seen of a turn; a failure is not printed. -/
def seen (exporting : Bool) (turn : Turn) : Trace :=
  ⟨(turn.outcome.pair?.map (report exporting)).getD "", turn.request.toList⟩

/-- Looks at the pair after some time, and fetches again if it is no longer valid. -/
def tick (exporting : Bool) (w : Watcher) (span : Nat) : Watcher × Trace :=
  let later := { w with vault := w.vault.wait span }
  if later.vault.provider.isHandleExpired 0 then
    let (next, turn) := later.fetch
    (next, seen exporting turn)
  else (later, .empty)

/-- Looks again and again, after each of the given spans. -/
def watch (exporting : Bool) (w : Watcher) : List Nat → Trace
  | [] => .empty
  | span :: rest =>
    let (next, trace) := w.tick exporting span
    trace.append (next.watch exporting rest)

end Watcher

/-- How a run ended. -/
structure Ending where
  code : Nat
  trace : Trace
  error : String

/-- The ending of a run that failed. -/
def Ending.failed (error : RunError) (requests : List Request) : Ending :=
  ⟨1, ⟨"", requests⟩, errorText error.causes ++ "\n"⟩

/-- Runs with arguments. A run that watches is interrupted after ticks with the given spans. -/
def runWith (files : Files) (script : Script) (ticks : List Nat) (a : Arguments) : Ending :=
  match provider files a with
  | .error e => .failed e []
  | .ok vault =>
    let (next, turn) := Watcher.fetch ⟨vault, script, 0⟩
    match turn.outcome with
    | .failure f => .failed (.fetch f) turn.request.toList
    | .pair _ =>
      let first := Watcher.seen a.exporting turn
      ⟨0, if a.watch then first.append (next.watch a.exporting ticks) else first, ""⟩

/-- Runs with a command line. What is said about usage is not part of the ending. -/
def run (env : Environment) (files : Files) (script : Script) (ticks : List Nat)
    (argv : List String) : Ending :=
  match Arguments.parse env argv with
  | .error .help => ⟨0, .empty, ""⟩
  | .error .version => ⟨0, ⟨versionText, []⟩, ""⟩
  | .error .invalid => ⟨2, .empty, ""⟩
  | .ok a => runWith files script ticks a

end FreshKeys.Cli
