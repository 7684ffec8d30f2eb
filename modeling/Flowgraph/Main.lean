import Flowgraph.Cli.Run

/-!
**The command-line program.**

Runs the command line against the real file system: the working directory and the home
directory come from the process, the options from the `BYTECODE_CFG_…` environment variables.
What the run prints goes to standard output and its log records to standard error; the exit
status is the run's.
-/

open System

namespace Flowgraph.Cli

/-- The failure that an operating-system error code stands for. -/
def failureOfCode : UInt32 → OsFailure
  | 2 => .noSuchFile
  | 17 => .fileExists
  | 20 => .notADirectory
  | 21 => .isADirectory
  | _ => .permissionDenied

/-- The operating-system error code of an error, or 0 when it has none. -/
def errorCode : IO.Error → UInt32
  | .alreadyExists _ code _ => code
  | .noFileOrDirectory _ code _ => code
  | .permissionDenied _ code _ => code
  | .inappropriateType _ code _ => code
  | .noSuchThing _ code _ => code
  | .invalidArgument _ code _ => code
  | .resourceExhausted _ code _ => code
  | .otherError code _ => code
  | _ => 0

/-- Runs a file operation on a path, turning its error into a failure. -/
def attempt (path : List String) (action : IO α) : IO (Except OsError α) := do
  try
    return .ok (← action)
  catch e =>
    return .error ⟨failureOfCode (errorCode e), path⟩

instance : FileSystem IO where
  kindAt path := do
    let p : FilePath := pathText path
    if ← p.isDir then return .directory
    else if ← p.pathExists then return .file
    else return .missing
  readBytes path := attempt path do return (← IO.FS.readBinFile (pathText path)).toList
  makeDir path := attempt path (IO.FS.createDir (pathText path))
  writeText path text := attempt path (IO.FS.writeFile (pathText path) text)

/-- The components of a directory given as text. -/
def components (dir : String) : List String := (dir.splitOn "/").filter (· != "")

/-- The names of the environment variables that options come from. -/
def optionVariables : List String :=
  ["ENTRY_METHOD", "ENTRY_DESCRIPTOR", "REACHABLE_ONLY", "MAX_PASSES"].map
    (Options.envPrefix ++ ·)

/-- The home directories of the users listed in the password file. -/
def userHomes : IO (List (String × List String)) := do
  match ← (IO.FS.readFile "/etc/passwd").toBaseIO with
  | .ok text =>
    return (text.splitOn "\n").filterMap fun line =>
      match line.splitOn ":" with
      | name :: _ :: _ :: _ :: _ :: home :: _ => some (name, components home)
      | _ => none
  | .error _ => return []

end Flowgraph.Cli

open Flowgraph.Cli in
/-- Runs the command line and returns its exit status. -/
def main (args : List String) : IO UInt32 := do
  let cwd := components (← IO.currentDir).toString
  let home := (← IO.getEnv "HOME").elim (some []) (homeDirectory cwd)
  let homes ← userHomes
  let homeOf := fun name => if name = "" then home else homes.lookup name
  let mut values : List (String × String) := []
  for name in optionVariables do
    if let some value ← IO.getEnv name then values := values ++ [(name, value)]
  let found := values
  let outcome ← run (m := IO) ⟨fun name => found.lookup name, cwd, homeOf⟩ args
  IO.print outcome.stdout
  for r in outcome.log do IO.eprintln r.text
  return outcome.exit.toUInt32
