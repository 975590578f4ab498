import IntervalStats.Event
import IntervalStats.Trace.Raw

/-!
# Traces

A trace is a baseline snapshot and the snapshots that follow it, each of which closes an interval.
Snapshots hold the cumulative counters of the cores and caches of one configuration.

`Trace.ofRaw` checks stored snapshots against a configuration. Every snapshot must have the counters
that every core reports and those of all caches, each with one value for each instance; an optional
counter of the cores is reported by all snapshots or by none. A counter is taken out of the stored
snapshot as it is read. Components and counters that the configuration does not call for do not matter.
-/

namespace IntervalStats

/-- The counters at one moment. -/
structure Snapshot where
  phase : UInt64
  mode : Int64
  /-- The counters of the cores in the order of `CoreCounter.all`, one value for each core, if they are
  reported. -/
  cores : List (Option (List UInt64))
  /-- The counters of the caches, in the order of the configuration and then of `CacheCounter.all`, one
  value for each instance. -/
  caches : List (List (List UInt64))

namespace Snapshot

/-- The values of a counter of the cores, if it is reported. -/
def core (s : Snapshot) (c : CoreCounter) : Option (List UInt64) :=
  s.cores[c.position]?.join

/-- The values of a counter of the cache at a position. -/
def cache (s : Snapshot) (position : Nat) (c : CacheCounter) : Outcome (List UInt64) :=
  match s.caches[position]? with
  | none => halt (.indexOutOfBounds s.caches.length position)
  | some counters =>
    match counters[c.position]? with
    | none => halt (.indexOutOfBounds counters.length c.position)
    | some values => .ok values

end Snapshot

/-- A configuration does not call for the filter counters of caches beyond the first level. -/
def CacheId.lacks (id : CacheId) (counter : CacheCounter) : Bool :=
  counter.isFilter && !id.isFirstLevel

/-! ## Reading -/

/-- A computation that takes counters out of the components that are left of a stored snapshot. -/
abbrev CounterReader := StateT (Table (Table RawCounter)) (Except Error)

namespace CounterReader

/-- Takes a counter out of a component, if it is there. -/
def take? (component counter : String) : CounterReader (Option RawCounter) := do
  match (← get).get? component with
  | none => return none
  | some counters =>
    modify (·.insert component (counters.erase counter))
    return counters.get? counter

/-- The values of a counter, if it is there; there must be so many. -/
def valuesOf (index : Nat) (component counter : String) (size : Nat) :
    Option RawCounter → Except Error (Option (List UInt64))
  | none => .ok none
  | some c =>
    if c.values.length = size then .ok (some c.values)
    else .error
      (.shapeMismatch s!"Counter `{component}.{counter}` of snapshot {index}" size c.values.length)

/-- Takes the values of a counter, if it is there. -/
def takeValues? (index : Nat) (component counter : String) (size : Nat) :
    CounterReader (Option (List UInt64)) := do
  valuesOf index component counter size (← take? component counter)

/-- Takes a counter of the cores, which may leave out what not every kind of core has. -/
def takeCore? (config : Config) (index : Nat) (c : CoreCounter) :
    CounterReader (Option (List UInt64)) := do
  let group := config.coreGroup
  let values ← takeValues? index group.name c.name group.cores
  if values.isNone && c.isRequired then throw (.missingCounter group.name c.name index)
  return values

/-- The values of a counter that must be there. -/
def orMissing (index : Nat) (component counter : String) :
    Option (List UInt64) → Except Error (List UInt64)
  | some values => .ok values
  | none => .error (.missingCounter component counter index)

/-- Takes a counter of a cache. Caches beyond the first level have no filter hits. -/
def takeCache (index : Nat) (cache : Cache) (c : CacheCounter) : CounterReader (List UInt64) := do
  if cache.id.lacks c then return List.replicate cache.instances 0
  else
    orMissing index cache.id.name c.name
      (← takeValues? index cache.id.name c.name cache.instances)

/-- Takes the counters of the cores, each in turn, then those of every cache. -/
def takeAll (config : Config) (index : Nat) :
    CounterReader (List (Option (List UInt64)) × List (List (List UInt64))) := do
  let cores ← CoreCounter.all.mapM (takeCore? config index)
  let caches ← config.caches.mapM fun cache => CacheCounter.all.mapM (takeCache index cache)
  return (cores, caches)

end CounterReader

/-- Checks a stored snapshot against a configuration. -/
def Snapshot.ofRaw (config : Config) (index : Nat) (s : RawSnapshot) : Except Error Snapshot := do
  let (cores, caches) ← (CounterReader.takeAll config index).run' s.components
  return { phase := s.phase, mode := s.mode, cores, caches }

/-- A baseline and the snapshots that each close an interval. -/
structure Trace where
  baseline : Snapshot
  later : List Snapshot

namespace Trace

def snapshots (trace : Trace) : List Snapshot :=
  trace.baseline :: trace.later

/-- The number of snapshots. -/
def size (trace : Trace) : Nat :=
  trace.snapshots.length

/-- The number of intervals. -/
def intervals (trace : Trace) : Nat :=
  trace.later.length

/-- The cores report the counter. -/
def reports (trace : Trace) (counter : CoreCounter) : Bool :=
  (trace.baseline.core counter).isSome

/-- The snapshot at an index; the baseline is at 0. -/
def snapshot (trace : Trace) (index : Nat) : Outcome Snapshot :=
  match trace.snapshots[index]? with
  | some s => .ok s
  | none => halt (.indexOutOfBounds trace.size index)

/-- The snapshots at both ends of the interval that a snapshot closes. -/
def interval (trace : Trace) (index : Nat) : Outcome (Snapshot × Snapshot) :=
  match index with
  | 0 => halt .baselineInterval
  | previous + 1 => do
    let before ← trace.snapshot previous
    let after ← trace.snapshot (previous + 1)
    return (before, after)

/-- The operation modes of the intervals. -/
def modes (trace : Trace) : Modes :=
  .ofList (trace.later.map (·.mode))

/-- An optional counter must be reported by all snapshots or by none; the error is about the first
snapshot that lacks it. -/
def checkUniform (trace : Trace) (coreGroup : String) (counter : CoreCounter) :
    Logged Event Error Unit := do
  let reported := trace.reports counter
  match trace.snapshots.findIdx? fun s => (s.core counter).isSome ≠ reported with
  | some index =>
    Logged.fail (.missingCounter coreGroup counter.name (if reported then index else 0))
  | none => unless reported do Logged.note (.counterUnreported coreGroup counter)

/-- Falls of the phase from a snapshot to the next, beginning after the one at an index. -/
def phaseFalls (index : Nat) : List Snapshot → List Event
  | before :: after :: rest =>
    let later := phaseFalls (index + 1) (after :: rest)
    if after.phase < before.phase then
      .phaseDecreased (index + 1) before.phase after.phase :: later
    else later
  | _ => []

/-- Checks stored snapshots against a configuration. -/
def ofRaw (config : Config) (raws : List RawSnapshot) : Logged Event Error Trace := do
  let snapshots ← Logged.ofExcept (raws.zipIdx.mapM fun r => Snapshot.ofRaw config r.2 r.1)
  match snapshots with
  | [] => Logged.fail .emptyTrace
  | baseline :: later => do
    let trace : Trace := ⟨baseline, later⟩
    CoreCounter.all.forM (trace.checkUniform config.coreGroup.name)
    (phaseFalls 0 trace.snapshots).forM Logged.note
    Logged.note (.traceLoaded trace.size)
    return trace

end Trace

end IntervalStats
