import IntervalStats.Trace.Basic

/-!
# Changes over an interval

The change of a metric over the interval that a snapshot closes. A count is the rise of a cumulative
counter, or of the sum of several counters of a cache; a counter that falls, or rises by more than a
signed word holds, is an error. Loads and stores are hits and misses together. Times come from the
phases that the interval spans, both ends included.
-/

namespace IntervalStats

/-! ## Counts -/

/-- The rise of a cumulative counter of one instance. -/
def rise (component counter : String) (index : Nat) (before after : UInt64) : Outcome Int64 :=
  if after < before then fail (.counterDecreased component counter index)
  else if (after - before).toNat < 0x8000000000000000 then .ok (Int64.ofInt (after - before).toNat)
  else fail (.counterOverflowed component counter index)

/-- The rise of a cumulative counter of each instance; the first that fails decides. -/
def rises (component counter : String) (index : Nat) (before after : List UInt64) :
    Outcome Quantity :=
  .array <$> joinExact (rise component counter index) before after

namespace Trace

/-- The change of a counter of the cores. -/
def coreDelta (trace : Trace) (config : Config) (counter : CoreCounter) (index : Nat) :
    Outcome Quantity := do
  let (before, after) ← trace.interval index
  match before.core counter, after.core counter with
  | some b, some a => rises config.coreGroup.name counter.name index b a
  | _, _ => fail (.missingCounter config.coreGroup.name counter.name index)

end Trace

/-- The sum of counters of a cache for each instance; a sum stays at the greatest word. -/
def Snapshot.cacheSum (s : Snapshot) (position instances : Nat) (counters : List CacheCounter) :
    Outcome (List UInt64) :=
  counters.foldlM
    (fun sum c => do
      let values ← s.cache position c
      joinExact (fun total value => .ok (saturatingAdd total value)) sum values)
    (List.replicate instances 0)

/-- The counts of a cache that are the rise of one sum of counters. -/
inductive CacheSum where
  | loadHits
  | loadMisses
  | storeHits
  | storeMisses
  deriving DecidableEq, Repr

/-- The counters that are summed. Hits of a first-level cache include those in its filter, and a store
may miss an invalid or a shared line. -/
def CacheSum.counters (id : CacheId) : CacheSum → List CacheCounter
  | loadHits => if id.isFirstLevel then [.filterLoadHits, .loadHits] else [.loadHits]
  | loadMisses => [.loadMisses]
  | storeHits => if id.isFirstLevel then [.filterStoreHits, .storeHits] else [.storeHits]
  | storeMisses => [.storeMissesInvalid, .storeMissesShared]

/-- The name of a sum of counters. -/
def counterSumName (counters : List CacheCounter) : String :=
  "+".intercalate (counters.map CacheCounter.name)

namespace Trace

/-- The change of a sum of counters of a cache. -/
def cacheSumDelta (trace : Trace) (config : Config) (name : String) (sum : CacheSum)
    (index : Nat) : Outcome Quantity := do
  let (position, cache) ← Outcome.ofExcept (config.findCache name)
  let counters := sum.counters cache.id
  let (before, after) ← trace.interval index
  let total ← before.cacheSum position cache.instances counters
  let next ← after.cacheSum position cache.instances counters
  rises name (counterSumName counters) index total next

/-- The changes of hits and misses, added. -/
def cachePairDelta (trace : Trace) (config : Config) (name : String) (hits misses : CacheSum)
    (index : Nat) : Outcome Quantity := do
  let hits ← trace.cacheSumDelta config name hits index
  let misses ← trace.cacheSumDelta config name misses index
  hits.add misses

/-- The change of a count of a cache. -/
def cacheDelta (trace : Trace) (config : Config) (name : String) (stat : CacheStat) (index : Nat) :
    Outcome Quantity :=
  match stat with
  | .loadHits => trace.cacheSumDelta config name .loadHits index
  | .loadMisses => trace.cacheSumDelta config name .loadMisses index
  | .loads => trace.cachePairDelta config name .loadHits .loadMisses index
  | .storeHits => trace.cacheSumDelta config name .storeHits index
  | .storeMisses => trace.cacheSumDelta config name .storeMisses index
  | .stores => trace.cachePairDelta config name .storeHits .storeMisses index

/-! ## Times -/

/-- The cycles that an interval spans. -/
def intervalCycles (trace : Trace) (config : Config) (index : Nat) : Outcome UInt64 := do
  let (before, after) ← trace.interval index
  if after.phase < before.phase then fail (.counterDecreased "trace" "phase" index)
  else
    let phases ← checkedAddUnsigned (after.phase - before.phase) 1
    checkedMulUnsigned config.phaseLength phases

end Trace

/-- Cycles as time, without the part after the point. -/
def Config.timeOf (config : Config) (cycles : Float) : Outcome Int64 :=
  if config.frequencyToCycles == 0 then fail (.divisionByZero .elapsedTime)
  else .ok (cycles / config.frequencyToCycles).toInt64

/-- The time in which a core that was busy for some of the cycles of an interval was idle. -/
def Config.idleTime (config : Config) (cycles busy : Int64) : Outcome Int64 := do
  let idle ← checkedSub cycles busy
  config.timeOf idle.toFloat

namespace Trace

def elapsedTimeDelta (trace : Trace) (config : Config) (index : Nat) : Outcome Quantity := do
  let cycles ← trace.intervalCycles config index
  .scalar <$> config.timeOf cycles.toFloat

/-- The idle time of each core, from the cycles of the interval as a signed word. -/
def idleTimeDelta (trace : Trace) (config : Config) (index : Nat) : Outcome Quantity := do
  let cycles ← trace.intervalCycles config index
  let busy ← trace.coreDelta config .cycles index
  .array <$> busy.elements.mapM (config.idleTime cycles.toInt64)

end Trace

/-! ## Metrics -/

namespace Metric

/-- The shape of a metric; the trace must report the core counter that the metric is built from. -/
def shape (metric : Metric) (config : Config) (trace : Trace) : Except Error Shape := do
  if let some counter := metric.coreCounter? then
    if !trace.reports counter then
      throw (.missingCounter config.coreGroup.name counter.name 0)
  match metric with
  | uops .load | uops .store => return .array (← config.findCache uopCache).2.instances
  | cache name _ => return .array (← config.findCache name).2.instances
  | elapsedTime => return .scalar
  | _ => return .array config.cores

/-- The change of a metric over the interval that a snapshot closes. -/
def delta (metric : Metric) (config : Config) (trace : Trace) (index : Nat) : Outcome Quantity :=
  match metric with
  | instructions => trace.coreDelta config .instructions index
  | cycles => trace.coreDelta config .cycles index
  | mispredictedBranches => trace.coreDelta config .mispredictedBranches index
  | correctBranches => trace.coreDelta config .predictedBranches index
  | uops .branch => trace.coreDelta config .branchUops index
  | uops .fpAddSub => trace.coreDelta config .fpAddSubUops index
  | uops .fpMulDiv => trace.coreDelta config .fpMulDivUops index
  | uops .load => trace.cacheDelta config uopCache .loads index
  | uops .store => trace.cacheDelta config uopCache .stores index
  | uops .total => trace.coreDelta config .uops index
  | cache name stat => trace.cacheDelta config name stat index
  | elapsedTime => trace.elapsedTimeDelta config index
  | idleElapsedTime => trace.idleTimeDelta config index

end Metric

end IntervalStats
