import FreshKeys.Cli.Program

/-!
# The command line program

Reads the environment and the files that the arguments name, runs, and prints what the run says.
Paths are absolute or start at the working directory. There is no connection to a network here, so
every request that a run sends is broken off.
-/

namespace FreshKeys

open Cli (Arguments Environment)

/-- The entry that a path is, if something is there. -/
def entryAt (path : String) : IO (List (String × FileEntry)) := do
  try
    return [(path, .file (← IO.FS.readBinFile path))]
  catch
    | .inappropriateType .. => return [(path, .directory)]
    | _ => return []

/-- The entries that paths are. -/
def entriesAt (paths : List String) : IO Files := do
  let entries ← paths.mapM entryAt
  return ⟨entries.flatten⟩

/-- The paths that settings name. -/
def pathsOf (s : Settings) : List String := s.tokenFile.toList ++ s.caFile.toList

/-- The files that arguments name, directly or in their settings file. -/
def filesOf (a : Arguments) : IO Files := do
  let named ← entriesAt a.config.toList
  match a.settings named with
  | .ok s => return ⟨named.entries ++ (← entriesAt (pathsOf s)).entries⟩
  | .error _ => return named

/-- The files of a command line. -/
def filesFor (env : Environment) (argv : List String) : IO Files :=
  match Arguments.parse env argv with
  | .ok a => filesOf a
  | .error _ => return .empty

end FreshKeys

open FreshKeys in
/-- Runs on a command line; the code of the ending is the exit code. -/
def main (argv : List String) : IO UInt32 := do
  let env : Cli.Environment := ⟨← IO.getEnv "VAULT_ADDR", ← IO.getEnv "VAULT_TOKEN"⟩
  let files ← filesFor env argv
  let ending := Cli.run env files ⟨[], .broken "no connection"⟩ [] argv
  IO.print ending.trace.out
  IO.eprint ending.error
  return UInt32.ofNat ending.code
