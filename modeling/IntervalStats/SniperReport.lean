import IntervalStats.Aggregate
import IntervalStats.Rate

/-!
# Sniper reports

A whole trace as the flat report that Sniper's tools read: settings of the system under `config`, and
sums over the accepted intervals under `results`. Lists have one number for each core; a component
with fewer instances than cores has zeros for the rest. The deepest level of the caches stands for
memory: its misses are reported as accesses to it.
-/

namespace IntervalStats

open Json (Tree)

namespace Sniper

/-- The value of an entry of a report. -/
inductive Entry where
  | int (value : Int64)
  | text (value : String)
  | ints (values : List Int64)
  | floats (values : List Float)

def Entry.toTree : Entry → Tree
  | int value => .ofInt value.toInt
  | text value => .ofText value
  | ints values => .array (values.map fun v => .ofInt v.toInt)
  | floats values => .array (values.map .ofFloat)

/-- An unsigned setting as a signed entry. -/
def Entry.ofUnsigned (value : UInt64) : Entry :=
  .int value.toInt64

/-- A cache that is reported: its name, what its results begin with, and its section of settings. -/
structure ReportedCache where
  name : String
  label : String
  category : String

def reportedCaches : List ReportedCache :=
  [⟨"l1d", "L1-D", "l1_dcache"⟩, ⟨"l1i", "L1-I", "l1_icache"⟩, ⟨"l2", "L2", "l2_cache"⟩,
    ⟨"l3", "L3", "l3_cache"⟩]

structure Report where
  config : Table Entry
  results : Table Entry

namespace Report

def toTree (r : Report) : Tree :=
  let entries (t : Table Entry) : Tree := .ofMembers (t.entries.map fun e => (e.1, e.2.toTree))
  .ofMembers [("config", entries r.config), ("results", entries r.results)]

/-- The report as JSON text, in one line or in many. -/
def render (r : Report) (pretty : Bool) : List Char :=
  if pretty then r.toTree.pretty 0 else r.toTree.compact

end Report

/-! ## Settings -/

/-- Settings of the performance model that the simulator does not report. -/
def fixedSettings : List (String × Entry) :=
  [("perf_model/branch_predictor/mispredict_penalty", .text "17"),
    ("perf_model/nuca/enabled", .text "false"),
    ("perf_model/core/interval_timer/dispatch_width", .text "4"),
    ("perf_model/core/interval_timer/window_size", .text "128"),
    ("perf_model/dram/num_controllers", .text "1"),
    ("perf_model/dram/dimms_per_controller", .text "3"),
    ("perf_model/dram/chips_per_dimm", .text "8"),
    ("power/technology_node", .text "45"),
    ("power/vdd", .text "1.2")]

/-- How the report calls a kind of core. -/
def coreType : CoreKind → String
  | .outOfOrder => "rob"
  | .simple | .other _ => "interval"

/-- Whether a kind of core is in order. -/
def inOrder : CoreKind → String
  | .simple => "1"
  | .outOfOrder | .other _ => "0"

def clockDomainName : ClockDomain → String
  | .perCore => "core"
  | .global => "global"

def coreSettings (config : Config) : List (String × Entry) :=
  [("general/total_cores", .text (toString config.cores)),
    ("perf_model/cache/levels", .int (Int64.ofInt config.cacheLevels)),
    ("perf_model/core/frequency", .text (Decimal.displayFloat (config.frequency.toFloat / 1000))),
    ("perf_model/core/type", .text (coreType config.coreGroup.kind)),
    ("perf_model/core/rob_timer/in_order", .text (inOrder config.coreGroup.kind))]

def cacheSettings (config : Config) (cache : Cache) (category : String) : List (String × Entry) :=
  let key (field : String) : String := s!"perf_model/{category}/{field}"
  [(key "associativity", .ofUnsigned cache.ways),
    (key "cache_block_size", .ofUnsigned config.lineSize),
    (key "cache_size", .text (toString cache.sizeKib)),
    (key "data_access_time", .ofUnsigned cache.latency),
    (key "shared_cores", .text (toString (config.sharedCores cache))),
    (key "dvfs_domain", .text (clockDomainName (config.clockDomain cache)))]

/-- All settings, in no particular order; the reported caches must be configured. -/
def settings (config : Config) : Except Error (List (String × Entry)) := do
  let caches ← reportedCaches.mapM fun r => do
    let (_, cache) ← config.findCache r.name
    return cacheSettings config cache r.category
  return fixedSettings ++ coreSettings config ++ caches.flatten

/-! ## Results -/

/-- Sums of micro-ops with one number for each core. -/
def uopTotals (a : Aggregator) : Logged Event Failure UopTotals := do
  let perCore (kind : UopKind) (what : String) : Logged Event Failure Quantity := do
    let sum ← a.sum (.uops kind)
    let values ← Logged.ofExcept (sum.padded a.config.cores what)
    return .array values
  let total ← a.sum (.uops .total)
  let loads ← perCore .load "Load micro-ops"
  let stores ← perCore .store "Store micro-ops"
  let branches ← a.sum (.uops .branch)
  let fpAddSub ← a.sum (.uops .fpAddSub)
  let fpMulDiv ← a.sum (.uops .fpMulDiv)
  return { total, loads, stores, branches, fpAddSub, fpMulDiv }

def uopEntries (uops : UopTotals) (generic : Quantity) : List (String × Entry) :=
  [("interval_timer.uop_branch", .ints uops.branches.elements),
    ("interval_timer.uop_fp_addsub", .ints uops.fpAddSub.elements),
    ("interval_timer.uop_fp_muldiv", .ints uops.fpMulDiv.elements),
    ("interval_timer.uop_load", .ints uops.loads.elements),
    ("interval_timer.uop_store", .ints uops.stores.elements),
    ("interval_timer.uop_generic", .ints generic.elements),
    ("interval_timer.uops_total", .ints uops.total.elements)]

def uopResults (a : Aggregator) : Logged Event Failure (List (String × Entry)) := do
  let uops ← uopTotals a
  let generic ← Logged.ofExcept uops.generic
  return uopEntries uops generic

/-- The results that are the sum of a metric of the cores. -/
def coreMetrics : List (String × Metric) :=
  [("branch_predictor.num-incorrect", .mispredictedBranches),
    ("branch_predictor.num-correct", .correctBranches),
    ("performance_model.instruction_count", .instructions),
    ("performance_model.idle_elapsed_time", .idleElapsedTime)]

def coreResults (a : Aggregator) : Logged Event Failure (List (String × Entry)) :=
  coreMetrics.mapM fun m => do
    let sum ← a.sum m.2
    return (m.1, .ints sum.elements)

def timeEntries (config : Config) (elapsed : Int64) : List (String × Entry) :=
  let rate := config.frequencyToCycles
  [("fs_to_cycles", .text (Decimal.displayFloat rate)),
    ("fs_to_cycles_cores", .floats (List.replicate config.cores rate)),
    ("global.time_begin", .int 0),
    ("global.time_end", .int elapsed),
    ("global.time", .int elapsed),
    ("performance_model.elapsed_time", .ints (List.replicate config.cores elapsed)),
    ("network.shmem-1.bus.num-packets", .ints [0, 0]),
    ("network.shmem-1.bus.time-used", .ints [0, 0])]

def timeResults (a : Aggregator) : Logged Event Failure (List (String × Entry)) := do
  let elapsed ← a.total .elapsedTime
  return timeEntries a.config elapsed

/-- Counts of a cache, with one number for each core. -/
structure CacheCounts where
  loadMisses : List Int64
  loads : List Int64
  storeMisses : List Int64
  stores : List Int64

namespace CacheCounts

def entries (counts : CacheCounts) (label : String) : List (String × Entry) :=
  [(s!"{label}.load-misses", .ints counts.loadMisses),
    (s!"{label}.loads", .ints counts.loads),
    (s!"{label}.store-misses", .ints counts.storeMisses),
    (s!"{label}.stores", .ints counts.stores)]

/-- The misses as accesses to memory. -/
def memoryEntries (counts : CacheCounts) : List (String × Entry) :=
  [("dram.reads", .ints counts.loadMisses), ("dram.writes", .ints counts.storeMisses)]

end CacheCounts

def cacheCounts (a : Aggregator) (name label : String) : Logged Event Failure CacheCounts := do
  let padded (stat : CacheStat) (field : String) : Logged Event Failure (List Int64) := do
    let sum ← a.sum (.cache name stat)
    Logged.ofExcept (sum.padded a.config.cores s!"Sniper result `{label}.{field}`")
  let loadMisses ← padded .loadMisses "load-misses"
  let loads ← padded .loads "loads"
  let storeMisses ← padded .storeMisses "store-misses"
  let stores ← padded .stores "stores"
  return { loadMisses, loads, storeMisses, stores }

/-- The results of a cache; on the deepest level its misses are also the accesses to memory. -/
def cacheResults (a : Aggregator) (cache : Cache) (label : String) :
    Logged Event Failure (List (String × Entry)) := do
  let counts ← cacheCounts a cache.id.name label
  if a.config.isLastLevel cache then
    Logged.note (.memoryAliased cache.id.name)
    return counts.memoryEntries ++ counts.entries label
  else return counts.entries label

/-- All results, in no particular order. -/
def results (a : Aggregator) : Logged Event Failure (List (String × Entry)) := do
  let uops ← uopResults a
  let cores ← coreResults a
  let times ← timeResults a
  let caches ← reportedCaches.mapM fun r => do
    let (_, cache) ← Logged.ofExcept (Outcome.ofExcept (a.config.findCache r.name))
    cacheResults a cache r.label
  return uops ++ cores ++ times ++ caches.flatten

namespace Report

/-- The report of a trace. -/
def build (a : Aggregator) : Logged Event Failure Report := do
  let config ← Logged.ofExcept (Outcome.ofExcept (settings a.config))
  let results ← Sniper.results a
  let report : Report := { config := .ofList config, results := .ofList results }
  Logged.note (.reportBuilt report.config.size report.results.size)
  return report

end Report

end Sniper

end IntervalStats
