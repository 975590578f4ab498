import IntervalStats.Text.Quoted
import IntervalStats.Trace.Counter

/-!
# Metrics

What can be measured over an interval: counts of the cores, counts of a cache, and times.
-/

namespace IntervalStats

/-- A kind of micro-op. -/
inductive UopKind where
  | branch
  | fpAddSub
  | fpMulDiv
  | load
  | store
  | total
  deriving DecidableEq, Repr

/-- A count of the accesses to a cache. -/
inductive CacheStat where
  | loadHits
  | loadMisses
  | loads
  | storeHits
  | storeMisses
  | stores
  deriving DecidableEq, Repr

inductive Metric where
  | instructions
  /-- The cycles in which the cores were busy. -/
  | cycles
  | mispredictedBranches
  | correctBranches
  | uops (kind : UopKind)
  | cache (name : String) (stat : CacheStat)
  | elapsedTime
  /-- The time in which each core was idle. -/
  | idleElapsedTime
  deriving DecidableEq, Repr

/-- The cache whose accesses are the load and store micro-ops. -/
def uopCache : String := "l1d"

/-- The core counter that a metric is built from. -/
def Metric.coreCounter? : Metric → Option CoreCounter
  | instructions => some .instructions
  | cycles | idleElapsedTime => some .cycles
  | mispredictedBranches => some .mispredictedBranches
  | correctBranches => some .predictedBranches
  | uops .branch => some .branchUops
  | uops .fpAddSub => some .fpAddSubUops
  | uops .fpMulDiv => some .fpMulDivUops
  | uops .total => some .uops
  | uops .load | uops .store | cache .. | elapsedTime => none

/-! ## As log lines show it -/

def UopKind.shown : UopKind → String
  | branch => "Branch"
  | fpAddSub => "FpAddSub"
  | fpMulDiv => "FpMulDiv"
  | load => "Load"
  | store => "Store"
  | total => "Total"

def CacheStat.shown : CacheStat → String
  | loadHits => "LoadHits"
  | loadMisses => "LoadMisses"
  | loads => "Loads"
  | storeHits => "StoreHits"
  | storeMisses => "StoreMisses"
  | stores => "Stores"

def Metric.shown : Metric → String
  | instructions => "Instructions"
  | cycles => "Cycles"
  | mispredictedBranches => "MispredictedBranches"
  | correctBranches => "CorrectBranches"
  | uops kind => "Uops(" ++ kind.shown ++ ")"
  | cache name stat => "Cache(" ++ Text.quoted name ++ ", " ++ stat.shown ++ ")"
  | elapsedTime => "ElapsedTime"
  | idleElapsedTime => "IdleElapsedTime"

end IntervalStats
