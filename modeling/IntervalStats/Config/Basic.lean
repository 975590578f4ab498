import IntervalStats.Config.GroupText
import IntervalStats.Config.Raw
import IntervalStats.Decimal.Layout
import IntervalStats.LoadError
import IntervalStats.Text.Quoted

/-!
# Configurations

The simulated system: one group of cores and its caches. `Config.ofRaw` checks a configuration as
given: there is one core group, the name of every cache begins with its level, its value reads as a
cache, and it has an instance. The caches of a configuration are in order of level and then name.
-/

namespace IntervalStats

/-- The name of a cache with its level. -/
structure CacheId where
  level : Nat
  name : String
  deriving DecidableEq, Repr

namespace CacheId

/-- Reads a name: `l` or `L`, then the level as one digit, then anything. -/
def parse (name : String) : Except Error CacheId :=
  match name.toList with
  | c :: digit :: _ =>
    if (c = 'l' ∨ c = 'L') ∧ digit.isDigit then .ok ⟨digit.toNat - '0'.toNat, name⟩
    else .error (.invalidCacheName name)
  | _ => .error (.invalidCacheName name)

theorem name_of_parse {name : String} {id : CacheId} (parsed : parse name = .ok id) :
    id.name = name := by
  unfold parse at parsed
  split at parsed
  · split at parsed
    · cases parsed
      rfl
    · cases parsed
  · cases parsed

/-- Caches of the first level count hits in their filter apart from their other hits. -/
def isFirstLevel (id : CacheId) : Bool :=
  id.level = 1

/-- By level, then by name. -/
def le (a b : CacheId) : Bool :=
  a.level < b.level || (a.level = b.level && ¬b.name < a.name)

end CacheId

/-- What kind of core a group has. -/
inductive CoreKind where
  | outOfOrder
  | simple
  | other (name : String)
  deriving DecidableEq, Repr

def CoreKind.ofName (name : String) : CoreKind :=
  if name = "OOO" then outOfOrder else if name = "Simple" then simple else other name

/-- The cores of the system. Their counters are under the name of the group. -/
structure CoreGroup where
  name : String
  cores : Nat
  kind : CoreKind
  deriving DecidableEq, Repr

/-- A cache of the system, with its size in bytes. -/
structure Cache where
  id : CacheId
  ways : UInt64
  instances : Nat
  latency : UInt64
  size : UInt64
  deriving DecidableEq, Repr

/-- The size of each instance in KiB, rounded down. -/
def Cache.sizeKib (cache : Cache) : UInt64 :=
  cache.size / 1024

/-- Whose clock a cache follows. -/
inductive ClockDomain where
  | perCore
  | global
  deriving DecidableEq, Repr

/-- The simulated system. -/
@[ext] structure Config where
  phaseLength : UInt64
  frequency : UInt64
  lineSize : UInt64
  coreGroup : CoreGroup
  caches : List Cache
  /-- No two caches have one name. -/
  distinct : (caches.map (·.id.name)).Nodup
  deriving DecidableEq, Repr

namespace Config

/-- The name of an entry among the caches that is no cache. -/
def ignoredEntry : String := "MAProfCacheGroupNames"

/-- Checks one entry among the caches: its name, then its shape, then its instances. -/
def cacheOf (name : String) (value : Json.Tree) : Except LoadError Cache := do
  let id ← orError (CacheId.parse name)
  let raw ← inContext ("Unable to parse cache " ++ Text.quoted name)
    (orCause .malformedJson (RawCache.ofTree? value))
  if raw.instances = 0 then throw (.of (.error (.noCacheInstances name)))
  return {
    id
    ways := raw.ways
    instances := raw.instances.toNat
    latency := raw.latency
    size := raw.size }

theorem name_of_cacheOf {name : String} {value : Json.Tree} {cache : Cache}
    (checked : cacheOf name value = .ok cache) : cache.id.name = name := by
  unfold cacheOf at checked
  cases parsed : CacheId.parse name with
  | error e =>
    rw [parsed] at checked
    cases checked
  | ok id =>
    cases read : RawCache.ofTree? value with
    | none =>
      rw [parsed, read] at checked
      cases checked
    | some raw =>
      rw [parsed, read] at checked
      change (if raw.instances = 0 then _ else _) = _ at checked
      split at checked
      · cases checked
      · cases checked
        exact CacheId.name_of_parse parsed

theorem names_of_mapM_cacheOf {entries : List (String × Json.Tree)} {caches : List Cache}
    (checked : entries.mapM (fun e => cacheOf e.1 e.2) = .ok caches) :
    caches.map (·.id.name) = entries.map (·.1) := by
  induction entries generalizing caches with
  | nil =>
    cases checked
    rfl
  | cons e entries ih =>
    rw [List.mapM_cons] at checked
    cases first : cacheOf e.1 e.2 with
    | error err =>
      rw [first] at checked
      cases checked
    | ok cache =>
      cases others : entries.mapM fun e => cacheOf e.1 e.2 with
      | error err =>
        rw [first, others] at checked
        cases checked
      | ok rest =>
        rw [first, others] at checked
        cases checked
        rw [List.map_cons, List.map_cons, name_of_cacheOf first, ih others]

/-- The caches of a table have names of their own. -/
theorem nodup_names_of_mapM {table : Table Json.Tree} {caches : List Cache}
    (checked : table.entries.mapM (fun e => cacheOf e.1 e.2) = .ok caches) :
    ((caches.mergeSort fun a b => a.id.le b.id).map (·.id.name)).Nodup := by
  rw [((List.mergeSort_perm ..).map _).nodup_iff, names_of_mapM_cacheOf checked, List.Nodup,
    List.pairwise_map]
  refine table.ascending.imp ?_
  intro a b less same
  exact String.lt_irrefl _ (same ▸ less)

/-- Checks the entries among the caches in order of their names, and puts the caches in order. -/
def cachesOf (table : Table Json.Tree) :
    Except LoadError { caches : List Cache // (caches.map (·.id.name)).Nodup } :=
  match checked : table.entries.mapM fun e => cacheOf e.1 e.2 with
  | .error e => .error e
  | .ok caches =>
    .ok ⟨caches.mergeSort fun a b => a.id.le b.id, by exact nodup_names_of_mapM checked⟩

/-- Checks a configuration as given: the number of core groups, then the caches. -/
def ofRaw (raw : Raw) : Except LoadError Config := do
  let [(name, group)] := raw.cores.entries
    | throw (.of (.error (.unsupportedCoreGroups raw.cores.size)))
  let ⟨caches, distinct⟩ ← cachesOf (raw.caches.erase ignoredEntry)
  return {
    phaseLength := raw.phaseLength
    frequency := raw.frequency
    lineSize := raw.lineSize
    coreGroup := { name, cores := group.cores.toNat, kind := .ofName group.kind }
    caches
    distinct }

/-- Reads a configuration from JSON text. -/
def ofJson (json : List Char) : Except LoadError Config := do
  let raw ← inContext "Unable to parse config" (orCause .malformedJson (Raw.parse? json))
  ofRaw raw

/-- Reads a configuration from nested groups. -/
def ofGroupText (text : List Char) : Except LoadError Config :=
  ofJson (GroupText.toJson text)

def cores (config : Config) : Nat :=
  config.coreGroup.cores

/-- What cycles are divided by to give the elapsed time. -/
def frequencyToCycles (config : Config) : Float :=
  config.frequency.toFloat / 1e9

/-- The position of a cache among the caches, and the cache. -/
def findCache (config : Config) (name : String) : Except Error (Nat × Cache) :=
  match config.caches.findIdx? (·.id.name = name) with
  | some index =>
    match config.caches[index]? with
    | some cache => .ok (index, cache)
    | none => .error (.unknownCache name)
  | none => .error (.unknownCache name)

/-- The deepest level of the caches, 0 if there are none. -/
def cacheLevels (config : Config) : Nat :=
  config.caches.foldl (fun deepest cache => max deepest cache.id.level) 0

/-- The cache is on the deepest level. -/
def isLastLevel (config : Config) (cache : Cache) : Bool :=
  cache.id.level = config.cacheLevels

/-- How many cores share an instance of the cache. -/
def sharedCores (config : Config) (cache : Cache) : Nat :=
  config.cores / cache.instances

def clockDomain (config : Config) (cache : Cache) : ClockDomain :=
  if config.sharedCores cache = 1 then .perCore else .global

end Config

/-! ## As log lines show it -/

def CoreKind.shown : CoreKind → String
  | outOfOrder => "OutOfOrder"
  | simple => "Simple"
  | other name => "Other(" ++ Text.quoted name ++ ")"

def CoreGroup.shown (group : CoreGroup) : String :=
  "CoreGroup \x7b name: " ++ Text.quoted group.name ++ s!", cores: {group.cores}, kind: "
    ++ group.kind.shown ++ " \x7d"

def CacheId.shown (id : CacheId) : String :=
  s!"CacheId \x7b level: {id.level}, name: " ++ Text.quoted id.name ++ " \x7d"

def Cache.shown (cache : Cache) : String :=
  "Cache \x7b id: " ++ cache.id.shown ++ s!", ways: {cache.ways}, instances: {cache.instances}"
    ++ s!", latency: {cache.latency}, size: {cache.size} \x7d"

def Config.shown (config : Config) : String :=
  s!"Config \x7b phase_length: {config.phaseLength}, frequency: {config.frequency}"
    ++ s!", line_size: {config.lineSize}, core_group: " ++ config.coreGroup.shown
    ++ ", caches: [" ++ ", ".intercalate (config.caches.map Cache.shown) ++ "] \x7d"

end IntervalStats
