import IntervalStats.Characteristic
import IntervalStats.CommandLine.Arguments
import IntervalStats.SniperReport
import IntervalStats.StatDirectory

/-!
# Command-line tools

Two tools read a statistics directory: one prints a characteristic, the other converts the trace to a
Sniper report. A run takes the files as they are and gives the files as it leaves them, with what it
prints and its exit code. A log file is begun before the directory is read, and events are added to it
as far as the filter lets them through.
-/

namespace IntervalStats.CommandLine

/-- The least severe events that are logged; none at all if there is no level. -/
abbrev LogFilter := Option Level

/-- Reads a filter. -/
def LogFilter.parse (name : String) : LogFilter :=
  match name.toLower with
  | "warn" => some .warn
  | "info" => some .info
  | "debug" => some .debug
  | "trace" => some .trace
  | _ => none

def LogFilter.admits (filter : LogFilter) (event : Event) : Bool :=
  match filter with
  | some least => event.level.rank ≤ least.rank
  | none => false

/-- What a run leaves behind. -/
structure Finished where
  exitCode : UInt32
  output : String
  /-- What is printed about a failure. -/
  complaint : String
  files : Files

/-- How a run ends when it has no result. -/
inductive Stop where
  /-- The request cannot be served; the text goes to the output. -/
  | refused (text : String)
  /-- Something failed while this was being done. -/
  | failed (doing : String)
  /-- A fault. -/
  | crashed (fault : Fault)

/-! ## Logs -/

/-- Begins a log file, which keeps its lines only if they are to be continued. A log file that cannot
be begun does not stop a run. -/
def beginLog (files : Files) (path : String) (continued : Bool) : Option Files :=
  let content := if continued then (files.bytes? path).getD [] else []
  (files.write path content).toOption

/-- Adds events to a log file. -/
def extendLog (filter : LogFilter) (path : String) (events : List Event) (files : Files) : Files :=
  let lines := (events.filter filter.admits).flatMap fun e => Binary.utf8 (e.line ++ "\n")
  let content := (files.bytes? path).getD []
  match files.write path (content ++ lines) with
  | .ok files => files
  | .error _ => files

/-! ## Arguments of both tools -/

def logFileOption : Choice where
  name := "log-file"
  value := some ("LOG_FILE", .path)
  summary := "Log file"
  details := some ("Specifies a file to perform verbose logging to. "
    ++ "You can use `RUST_LOG_FILE` to set filtering options")

def logFileAppendOption : Choice where
  name := "log-file-append"
  value := none
  summary := "Whether to append to the log file"
  details := none

def statDirPosition : Position where
  name := "STAT_DIR"
  kind := .path
  required := true
  summary := "Stat directory"

def modesPosition : Position where
  name := "OP_MODES"
  kind := .modes
  required := true
  summary := "Operation modes, comma separated, or `*` for all"

/-- The arguments that both tools take. -/
structure Common where
  logFile : Option String
  logFileAppend : Bool
  statDir : String
  modes : ModeSet

def Common.ofReading (r : Reading) : Common where
  logFile := r.value? "log-file"
  logFileAppend := r.has "log-file-append"
  statDir := (r.value? "STAT_DIR").getD ""
  modes := match ModeSet.parse ((r.value? "OP_MODES").getD "") with
    | .ok modes => modes
    | .error _ => .all

/-- An optional text as log lines show it. -/
def shownOption : Option String → String
  | some s => "Some(" ++ Text.quoted s ++ ")"
  | none => "None"

def Common.shown (c : Common) : String :=
  "log_file: " ++ shownOption c.logFile ++ s!", log_file_append: {c.logFileAppend}, stat_dir: "
    ++ Text.quoted c.statDir ++ ", op_modes: " ++ c.modes.shown

/-! ## Runs -/

/-- The way a failed computation on counters stops a run. -/
def stopOf (doing : String) : Failure → Stop
  | .error _ => .failed doing
  | .fault fault => .crashed fault

/-- Loads the directory of a run. -/
def loadDirectory (files : Files) (common : Common) : Logged Event Stop Aggregator := do
  let (config, trace) ← (StatDirectory.load files common.statDir).mapError fun _ =>
    Stop.failed "Unable to open stat directory"
  return { config, trace, modes := common.modes }

/-- What a run prints and leaves behind when it stops without a result. -/
def Stop.finish (stop : Stop) (files : Files) : Finished :=
  match stop with
  | refused text => { exitCode := 1, output := text, complaint := "", files }
  | failed doing => { exitCode := 1, output := "", complaint := "Error: " ++ doing, files }
  | crashed fault => { exitCode := 101, output := "", complaint := fault.message, files }

/-- Runs a tool whose arguments are in order: begins its log, does its work, and delivers the
result. -/
def runLogged {α : Type} (filter : LogFilter) (files : Files) (common : Common) (shown : String)
    (work : Files → Logged Event Stop α) (deliver : α → Files → Finished) : Finished :=
  let start := fun (files : Files) (log : List Event → Files → Files) =>
    let files := log [.arguments shown] files
    let run := work files
    let files := log run.events files
    match run.outcome with
    | .ok result => deliver result files
    | .error stop => stop.finish files
  match common.logFile.bind fun path =>
      (beginLog files path common.logFileAppend).map fun files => (path, files) with
  | some (path, files) => start files (extendLog filter path)
  | none => start files fun _ files => files

/-! ## Characteristics -/

def statCommand : Command where
  name := "zsim-stat"
  positions := [statDirPosition, modesPosition,
    { name := "CHARACTERISTIC", kind := .text, required := true, summary := "Characteristic" },
    { name := "CACHE", kind := .text, required := false,
      summary := "Cache, for cache characteristics" }]
  options := [logFileOption, logFileAppendOption]
  epilogue := some Characteristic.usage

/-- The characteristic of a code, with a cache if it needs one. -/
def validate (code : String) (cache : Option String) : Except Error Characteristic := do
  let c ← Characteristic.parse code
  if c.needsCache && cache.isNone then throw c.cacheMissing
  return c

/-- Prints a characteristic. The code is checked before the directory is read. -/
def runStat (args : List String) (filter : LogFilter) (files : Files) : Finished :=
  match statCommand.read args with
  | .error .help => { exitCode := 0, output := statCommand.describe, complaint := "", files }
  | .error refusal =>
    { exitCode := 1, output := refusal.message ++ "\n", complaint := "", files }
  | .ok r =>
    let common := Common.ofReading r
    let code := (r.value? "CHARACTERISTIC").getD ""
    let cache := r.value? "CACHE"
    let shown := "Args \x7b " ++ common.shown ++ ", characteristic: " ++ Text.quoted code
      ++ ", cache: " ++ shownOption cache ++ " \x7d"
    let work := fun (files : Files) => do
      let c ← Logged.ofExcept ((validate code cache).mapError fun e =>
        Stop.refused (e.message ++ "\n" ++ Characteristic.usage ++ "\n"))
      let a ← loadDirectory files common
      (c.evaluate a cache).mapError (stopOf ("Unable to compute characteristic " ++ c.code))
    runLogged filter files common shown work fun number files =>
      { exitCode := 0, output := number.text ++ "\n", complaint := "", files }

/-! ## Sniper reports -/

def sniperCommand : Command where
  name := "zsim-to-sniper"
  positions := [statDirPosition, modesPosition]
  options := [logFileOption, logFileAppendOption,
    { name := "output", value := some ("OUTPUT_FILE", .path), summary := "Output file",
      details := some "If not specified, outputs to stdout" },
    { name := "pretty", value := none, summary := "Whether to pretty-print the output",
      details := none }]
  epilogue := none

/-- Writes the text of a report to a file, or prints it. -/
def deliverReport (outputFile : Option String) (text : List Char) (files : Files) : Finished :=
  match outputFile with
  | none => { exitCode := 0, output := String.ofList text, complaint := "", files }
  | some path =>
    match files.write path (Binary.utf8 (String.ofList text)) with
    | .ok files => { exitCode := 0, output := "", complaint := "", files }
    | .error _ => (Stop.failed "Unable to create output file").finish files

/-- Converts a trace to a Sniper report. -/
def runSniper (args : List String) (filter : LogFilter) (files : Files) : Finished :=
  match sniperCommand.read args with
  | .error .help => { exitCode := 0, output := sniperCommand.describe, complaint := "", files }
  | .error refusal => { exitCode := 2, output := "", complaint := refusal.message, files }
  | .ok r =>
    let common := Common.ofReading r
    let outputFile := r.value? "output"
    let pretty := r.has "pretty"
    let shown := "Args \x7b " ++ common.shown ++ ", output_file: " ++ shownOption outputFile
      ++ s!", pretty: {pretty} \x7d"
    let work := fun (files : Files) => do
      let a ← loadDirectory files common
      let report ← (Sniper.Report.build a).mapError (stopOf "Unable to convert to sniper results")
      return report.render pretty
    runLogged filter files common shown work (deliverReport outputFile)

end IntervalStats.CommandLine
