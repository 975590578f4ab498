/-!
# Counters

The cumulative counters of cores and caches that metrics are built from, with the names they have in
a trace.
-/

namespace IntervalStats

inductive CoreCounter where
  | instructions
  | cycles
  | mispredictedBranches
  | predictedBranches
  | branchUops
  | fpAddSubUops
  | fpMulDivUops
  | uops
  deriving DecidableEq, Repr

namespace CoreCounter

def all : List CoreCounter :=
  [instructions, cycles, mispredictedBranches, predictedBranches, branchUops, fpAddSubUops,
    fpMulDivUops, uops]

theorem mem_all (c : CoreCounter) : c ∈ all := by
  cases c <;> decide

/-- Where the values of a counter are kept. -/
def position : CoreCounter → Nat
  | instructions => 0
  | cycles => 1
  | mispredictedBranches => 2
  | predictedBranches => 3
  | branchUops => 4
  | fpAddSubUops => 5
  | fpMulDivUops => 6
  | uops => 7

@[simp] theorem getElem?_all_position (c : CoreCounter) : all[c.position]? = some c := by
  cases c <;> rfl

/-- Every kind of core reports its instructions and cycles; only out-of-order cores report the
rest. -/
def isRequired : CoreCounter → Bool
  | instructions | cycles => true
  | _ => false

def name : CoreCounter → String
  | instructions => "instrs"
  | cycles => "cycles"
  | mispredictedBranches => "mispredBranches"
  | predictedBranches => "predBranches"
  | branchUops => "branchUops"
  | fpAddSubUops => "fpAddSubUops"
  | fpMulDivUops => "fpMulDivUops"
  | uops => "uops"

end CoreCounter

inductive CacheCounter where
  /-- Load hits in the filter of a first-level cache. -/
  | filterLoadHits
  | loadHits
  | loadMisses
  /-- Store hits in the filter of a first-level cache. -/
  | filterStoreHits
  | storeHits
  /-- Store misses that found the line invalid. -/
  | storeMissesInvalid
  /-- Store misses that found the line shared. -/
  | storeMissesShared
  deriving DecidableEq, Repr

namespace CacheCounter

def all : List CacheCounter :=
  [filterLoadHits, loadHits, loadMisses, filterStoreHits, storeHits, storeMissesInvalid,
    storeMissesShared]

theorem mem_all (c : CacheCounter) : c ∈ all := by
  cases c <;> decide

/-- Where the values of a counter are kept. -/
def position : CacheCounter → Nat
  | filterLoadHits => 0
  | loadHits => 1
  | loadMisses => 2
  | filterStoreHits => 3
  | storeHits => 4
  | storeMissesInvalid => 5
  | storeMissesShared => 6

@[simp] theorem getElem?_all_position (c : CacheCounter) : all[c.position]? = some c := by
  cases c <;> rfl

def name : CacheCounter → String
  | filterLoadHits => "fhGETS"
  | loadHits => "hGETS"
  | loadMisses => "mGETS"
  | filterStoreHits => "fhGETX"
  | storeHits => "hGETX"
  | storeMissesInvalid => "mGETXIM"
  | storeMissesShared => "mGETXSM"

/-- The counters of a filter exist on first-level caches only. -/
def isFilter : CacheCounter → Bool
  | filterLoadHits | filterStoreHits => true
  | _ => false

end CacheCounter

end IntervalStats
