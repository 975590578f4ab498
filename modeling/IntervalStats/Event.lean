import IntervalStats.Config.Basic
import IntervalStats.Logged
import IntervalStats.Metric.Basic
import IntervalStats.ModeSet
import IntervalStats.Quantity

/-!
# Events

What a run notes in its log. Every event has a severity, the part of the program it comes from, and a
line of text.
-/

namespace IntervalStats

/-- Severities, the most severe first. -/
inductive Level where
  | warn
  | info
  | debug
  | trace
  deriving DecidableEq, Repr

namespace Level

def name : Level → String
  | warn => "WARN"
  | info => "INFO"
  | debug => "DEBUG"
  | trace => "TRACE"

/-- The place of a level, from the most severe. -/
def rank : Level → Nat
  | warn => 0
  | info => 1
  | debug => 2
  | trace => 3

end Level

inductive Event where
  /-- The arguments of the command line. -/
  | arguments (shown : String)
  | configLoaded (config : Config)
  /-- The cores do not report an optional counter. -/
  | counterUnreported (coreGroup : String) (counter : CoreCounter)
  | phaseDecreased (index : Nat) (previous current : UInt64)
  | traceLoaded (snapshots : Nat)
  | readingJsonTrace (path : String)
  | readingBinaryTrace (path : String)
  | directoryOpened (path : String) (intervals : Nat)
  | aggregated (metric : Metric) (modes : ModeSet) (total : Quantity)
  /-- The misses of a last-level cache stand for accesses to memory. -/
  | memoryAliased (cache : String)
  | reportBuilt (configEntries resultEntries : Nat)

namespace Event

def level : Event → Level
  | phaseDecreased .. => .warn
  | directoryOpened .. | reportBuilt .. => .info
  | aggregated .. => .trace
  | _ => .debug

/-- The part of the program that an event comes from. -/
def source : Event → String
  | arguments _ => "zsim_stats_util::logger::pre_init"
  | configLoaded _ => "zsim_stats::config"
  | counterUnreported .. | phaseDecreased .. | traceLoaded _ => "zsim_stats::trace"
  | readingJsonTrace _ | readingBinaryTrace _ | directoryOpened .. => "zsim_stats::stat_dir"
  | aggregated .. => "zsim_stats::aggregate"
  | memoryAliased _ | reportBuilt .. => "zsim_stats::sniper"

def message : Event → String
  | arguments shown => "Args: " ++ shown
  | configLoaded config => "Loaded config config=" ++ config.shown
  | counterUnreported coreGroup counter =>
    s!"Cores don't report counter core_group={coreGroup} counter=" ++ Text.quoted counter.name
  | phaseDecreased index previous current =>
    s!"Phase index decreased index={index} prev={previous} cur={current}"
  | traceLoaded snapshots => s!"Loaded trace snapshots={snapshots}"
  | readingJsonTrace path => "Reading json trace json_path=" ++ Text.quoted path
  | readingBinaryTrace path => "Reading bincode trace bin_path=" ++ Text.quoted path
  | directoryOpened path intervals =>
    "Opened stat directory path=" ++ Text.quoted path ++ s!" intervals={intervals}"
  | aggregated metric modes total =>
    "Aggregated metric metric=" ++ metric.shown ++ " op_modes=" ++ modes.text
      ++ " total=" ++ total.text
  | memoryAliased cache => s!"Aliasing last level cache misses to dram cache={cache}"
  | reportBuilt configEntries resultEntries =>
    s!"Converted to sniper results config_entries={configEntries} results_entries={resultEntries}"

/-- The line of an event in a log. -/
def line (e : Event) : String :=
  e.level.name ++ " " ++ e.source ++ ": " ++ e.message

end Event

end IntervalStats
