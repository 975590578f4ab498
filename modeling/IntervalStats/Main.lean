import IntervalStats.CommandLine.Tool

/-!
# The program

Runs the tool that the program is called by: `zsim-to-sniper` converts a trace to a Sniper report, and
any other name prints a characteristic. The files that a run may touch are read first, the run itself
is `CommandLine.runStat` or `CommandLine.runSniper`, and the files that it changed are written back.
-/

namespace IntervalStats.CommandLine

/-- What an open handle leads to: what cannot be read is a directory. -/
def nodeOf (handle : IO.FS.Handle) : IO Node := do
  try
    let bytes ← handle.readBinToEnd
    return .file bytes.data.toList
  catch _ =>
    return .directory

/-- What a path leads to, if it can be opened. -/
def probe (path : String) : IO (Option Node) := do
  try
    let handle ← IO.FS.Handle.mk path .read
    return some (← nodeOf handle)
  catch _ =>
    return none

/-- The path of the directory that a path is in. -/
def parentPath (path : String) : String :=
  let names := (path.splitOn "/").dropLast
  if names = [""] then "/" else "/".intercalate names

/-- The files and directories that are found at some paths and right above them. -/
def gather (paths : List String) : IO Files := do
  let candidates := paths.flatMap fun path => [path, parentPath path]
  let mut nodes := []
  for path in candidates do
    if path ≠ "" then
      if let some node ← probe path then nodes := (path, node) :: nodes
  return Files.ofList nodes

/-- The paths that a run may read or write. -/
def touchedPaths (r : Reading) : List String :=
  let statDir := (r.value? "STAT_DIR").getD ""
  let read := [StatDirectory.configFile, StatDirectory.jsonTraceFile,
    StatDirectory.binaryTraceFile].map (joinPath statDir)
  read ++ (r.value? "log-file").toList ++ (r.value? "output").toList

/-- Writes back the files that a run changed. -/
def writeBack (before after : Files) (paths : List String) : IO Unit :=
  for path in paths do
    if let some bytes := after.bytes? path then
      if before.bytes? path ≠ some bytes then
        IO.FS.writeBinFile path ⟨bytes.toArray⟩

/-- Runs the tool of a name. -/
def run (name : Option String) (args : List String) : IO UInt32 := do
  let sniper := name = some sniperCommand.name
  let command := if sniper then sniperCommand else statCommand
  let filter := LogFilter.parse ((← IO.getEnv "RUST_LOG_FILE").getD "debug")
  let paths := match command.read args with
    | .ok r => touchedPaths r
    | .error _ => []
  let before ← gather paths
  let done := if sniper then runSniper args filter before else runStat args filter before
  writeBack before done.files paths
  IO.print done.output
  if done.complaint ≠ "" then IO.eprintln done.complaint
  return done.exitCode

end IntervalStats.CommandLine

def main (args : List String) : IO UInt32 := do
  IntervalStats.CommandLine.run (← IO.appPath).fileName args
