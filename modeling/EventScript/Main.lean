/-
The program. It looks up what a command line needs, its environment, its files and the
time, lets the line be carried out on them, and then writes what has changed in the store
and what is to be said. It has no network, so every delivery of a webhook or a row fails.
-/
import EventScript.CommandLine.Execution
import Std.Time.DateTime.Timestamp

namespace EventScript.Main

open CommandLine

/-- The variables that are set, of some names. -/
def environment (names : List String) : IO Settings.Environment :=
  names.filterMapM fun name => do return (← IO.getEnv name).map fun value => (name, value)

/-- The time. -/
def now : IO Timestamp := do
  let nanos := (← Std.Time.Timestamp.now).toNanosecondsSinceUnixEpoch.val
  return ⟨nanos / 1000000000, (nanos % 1000000000).toNat⟩

/-- A file's text; a file that is no text cannot be read, as a folder cannot. -/
def textTree (path : String) : IO FileTree := do
  try return .file (← IO.FS.readFile path) catch _ => return .folder []

/-- What is at a path; the entries of a folder only when asked for. -/
def tree? (path : String) (entries : Bool) : IO (Option FileTree) := do
  let place := (← IO.currentDir) / path
  if path.isEmpty || !(← place.pathExists) then return none
  else if ← place.isDir then
    if !entries then return some (.folder [])
    let trees ← (← place.readDir).toList.mapM fun entry => do
      return (entry.fileName, ← textTree (FileStore.below path entry.fileName))
    return some (.folder (Table.ofList trees))
  else return some (← textTree path)

/-- The files with what is at a path, where something is. -/
def withPath (entries : Bool) (files : FileSystem) (path : String) : IO FileSystem := do
  let location := (Text.split "/" path).foldl FileSystem.advance (files.origin path)
  match ← tree? path entries with
  | some tree => return files.putAt location tree
  | none => return files

/-- The files a command needs. -/
def gather (command : Command) : IO FileSystem := do
  let here := (Text.split "/" (← IO.currentDir).toString).filter (· != "")
  let files := FileSystem.putAt { here } here (.folder [])
  let files ← match command.store? with
    | some root => do
      withPath true (← withPath false files root) (FileStore.folderPath root)
    | none => pure files
  command.files.foldlM (withPath false) files

/-- Makes a change in a folder. -/
def makeChange (folder : String) : FolderChange → IO Unit
  | .write name text => IO.FS.writeFile (FileStore.below folder name) text
  | .remove name => IO.FS.removeFile (FileStore.below folder name)

/-- Writes what has changed in a store. -/
def keep (root : String) (before after : FileSystem) : IO Unit := do
  let path := FileStore.folderPath root
  match after.locate? path with
  | none => return
  | some place =>
    if after.isFolderAt place then
      IO.FS.createDirAll path
      (Folder.changes (before.folderAt place) (after.folderAt place)).forM (makeChange path)

/-- Carries out a line. -/
def perform (i : Invocation) : IO UInt32 := do
  let stdout ← IO.getStdout
  let colours := (← IO.getEnv "NO_COLOR").isNone && (← stdout.isTty)
  let before ← gather i.command
  let outcome := i.execute (← environment Settings.variableNames) before { now := ← now } colours
  if let some root := i.command.store? then keep root before outcome.files
  let exit := outcome.exit (.choose i.verbose (← IO.getEnv "RUST_LOG")) colours
  (← IO.getStderr).putStr exit.stderr
  stdout.putStr exit.stdout
  stdout.flush
  return exit.code.toUInt32

end EventScript.Main

open EventScript in
/-- Reads the line and carries it out, or says how lines are written. -/
def main (line : List String) : IO UInt32 := do
  match CommandLine.Invocation.ofLine line with
  | .ok i => EventScript.Main.perform i
  | .error .told =>
    IO.println CommandLine.usage
    return 0
  | .error .refused =>
    (← IO.getStderr).putStrLn CommandLine.usage
    return 2
