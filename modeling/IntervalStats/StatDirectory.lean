import IntervalStats.Files
import IntervalStats.Trace.Basic

/-!
# Statistics directories

The directory to which a simulator writes its configuration and the trace of a run. The trace is read
from its JSON file if there is one, and else from its binary file.
-/

namespace IntervalStats

namespace StatDirectory

def configFile : String := "out.cfg"

def jsonTraceFile : String := "zsim-ev.json"

def binaryTraceFile : String := "zsim-ev.bin"

/-- What a path leads to, if anything. -/
def openIfExists (files : Files) (path : String) : Except LoadError (Option Node) :=
  match files.find path with
  | .ok node => .ok (some node)
  | .error .notFound => .ok none
  | .error kind => .error ⟨.io kind, ["Unable to open " ++ Text.quoted path]⟩

/-- The snapshots in a JSON trace file. -/
def parseJsonTrace? : Node → Option (List RawSnapshot)
  | .directory => none
  | .file bytes => (Binary.ofUtf8? bytes).bind fun text => RawSnapshot.parseAll? text.toList

/-- The snapshots in a binary trace file. -/
def parseBinaryTrace? : Node → Option (List RawSnapshot)
  | .directory => none
  | .file bytes => RawSnapshot.decodeAll? bytes

/-- Reads the snapshots of a directory. -/
def readSnapshots (files : Files) (path : String) : Logged Event LoadError (List RawSnapshot) := do
  let jsonPath := joinPath path jsonTraceFile
  let binaryPath := joinPath path binaryTraceFile
  match ← Logged.ofExcept (openIfExists files jsonPath) with
  | some node =>
    Logged.note (.readingJsonTrace jsonPath)
    Logged.ofExcept (inContext ("Unable to parse trace file " ++ Text.quoted jsonPath)
      (orCause .malformedJson (parseJsonTrace? node)))
  | none =>
    match ← Logged.ofExcept (openIfExists files binaryPath) with
    | some node =>
      Logged.note (.readingBinaryTrace binaryPath)
      Logged.ofExcept (inContext ("Unable to parse trace file " ++ Text.quoted binaryPath)
        (orCause .malformedBinary (parseBinaryTrace? node)))
    | none =>
      Logged.fail (.of (.message ("Stat directory " ++ Text.quoted path ++ " has neither "
        ++ Text.quoted jsonTraceFile ++ " nor " ++ Text.quoted binaryTraceFile)))

/-- Loads the configuration and the trace of a directory. -/
def load (files : Files) (path : String) : Logged Event LoadError (Config × Trace) := do
  let configPath := joinPath path configFile
  let text ← Logged.ofExcept (inContext ("Unable to read config file " ++ Text.quoted configPath)
    ((files.readText configPath).mapError fun kind => .of (.io kind)))
  let config ← Logged.ofExcept (inContext "Unable to load config" (Config.ofGroupText text.toList))
  Logged.note (.configLoaded config)
  let snapshots ← readSnapshots files path
  let trace ← (Trace.ofRaw config snapshots).mapError fun e =>
    ⟨.error e, ["Unable to load trace"]⟩
  Logged.note (.directoryOpened path trace.intervals)
  return (config, trace)

/-- Writes a binary trace file into a directory; gives its path and the files after that. -/
def writeTrace (files : Files) (path : String) (snapshots : List RawSnapshot) :
    Except LoadError (String × Files) :=
  let binaryPath := joinPath path binaryTraceFile
  match files.write binaryPath (RawSnapshot.encodeAll snapshots) with
  | .ok files => .ok (binaryPath, files)
  | .error kind =>
    .error ⟨.io kind, ["Unable to create trace file " ++ Text.quoted binaryPath]⟩

end StatDirectory

end IntervalStats
