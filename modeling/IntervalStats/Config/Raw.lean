import IntervalStats.Json.Value

/-!
# Configurations as given

The part of a simulator's configuration that matters here, as it is read from JSON and before it is
checked. Entries among the caches that are no caches are allowed, so caches are kept as plain JSON
values until they are asked for.
-/

namespace IntervalStats.Config

open Json (Tree)

/-- A group of equal cores. -/
structure RawCoreGroup where
  cores : UInt64
  kind : String
  deriving DecidableEq, Repr

/-- A cache. -/
structure RawCache where
  ways : UInt64
  instances : UInt64
  latency : UInt64
  size : UInt64
  deriving DecidableEq, Repr

/-- A configuration as given. -/
structure Raw where
  phaseLength : UInt64
  frequency : UInt64
  lineSize : UInt64
  cores : Table RawCoreGroup
  /-- Plain values in settled form. -/
  caches : Table Tree

namespace RawCoreGroup

def ofTree? (t : Tree) : Option RawCoreGroup := do
  let [cores, kind] ← t.record? ["cores", "type"] | none
  return { cores := ← cores.unsigned?, kind := ← kind.text? }

def toTree (g : RawCoreGroup) : Tree :=
  .ofMembers [("cores", .ofInt g.cores.toNat), ("type", .ofText g.kind)]

end RawCoreGroup

/-- Reads a cache; the associativity is in a record of its own. -/
def RawCache.ofTree? (t : Tree) : Option RawCache := do
  let [array, instances, latency, size] ← t.record? ["array", "caches", "latency", "size"] | none
  let [ways] ← array.record? ["ways"] | none
  return {
    ways := ← ways.unsigned?
    instances := ← instances.unsigned?
    latency := ← latency.unsigned?
    size := ← size.unsigned? }

namespace Raw

/-- The containers around each value among the caches. -/
def cacheDepth : Nat := 3

def ofTree? (t : Tree) : Option Raw := do
  let [sim, sys] ← t.record? ["sim", "sys"] | none
  let [phaseLength] ← sim.record? ["phaseLength"] | none
  let [frequency, lineSize, cores, caches] ←
    sys.record? ["frequency", "lineSize", "cores", "caches"] | none
  return {
    phaseLength := ← phaseLength.unsigned?
    frequency := ← frequency.unsigned?
    lineSize := ← lineSize.unsigned?
    cores := ← cores.table? RawCoreGroup.ofTree?
    caches := ← caches.table? (Tree.plain? (Tree.depthLimit - cacheDepth)) }

def toTree (raw : Raw) : Tree :=
  .ofMembers [
    ("sim", .ofMembers [("phaseLength", .ofInt raw.phaseLength.toNat)]),
    ("sys", .ofMembers [
      ("frequency", .ofInt raw.frequency.toNat),
      ("lineSize", .ofInt raw.lineSize.toNat),
      ("cores", .ofMembers (raw.cores.entries.map fun e => (e.1, e.2.toTree))),
      ("caches", .ofMembers raw.caches.entries)])]

/-- Reads JSON text. -/
def parse? (json : List Char) : Option Raw :=
  (Tree.parse? json).bind ofTree?

/-- Writes JSON text without blanks. -/
def render (raw : Raw) : List Char :=
  raw.toTree.compact

end Raw

end IntervalStats.Config
