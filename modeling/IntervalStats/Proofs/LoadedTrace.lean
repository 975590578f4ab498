import IntervalStats.Proofs.TakenCounters

/-!
# Loaded traces

What the checks of stored snapshots establish. `RawSnapshot.Complete` is the demand of a configuration
on one stored snapshot, and `Trace.ofRaw_eq_ok_iff` says that a trace is loaded exactly when every
stored snapshot is complete, there is a baseline, and all snapshots report the same counters.
`Trace.Fits` is the invariant that later computations rely on: every list of values of a loaded trace
has the length that the configuration gives its component.
-/

namespace IntervalStats

/-! ## One snapshot -/

/-- The stored snapshot has every counter that the configuration calls for, with one value for each
instance. -/
structure RawSnapshot.Complete (config : Config) (s : RawSnapshot) : Prop where
  required : ∀ c : CoreCounter, c.isRequired = true →
    (s.values? config.coreGroup.name c.name).isSome = true
  cores : ∀ (c : CoreCounter) values, s.values? config.coreGroup.name c.name = some values →
    values.length = config.cores
  caches : ∀ cache ∈ config.caches, ∀ c : CacheCounter, cache.id.lacks c = false →
    ∃ values, s.values? cache.id.name c.name = some values ∧ values.length = cache.instances

namespace RawSnapshot

variable {s : RawSnapshot} {config : Config} {index size : Nat} {component counter : String}

theorem checkCounter_eq_ok_iff {given : Option (List UInt64)} :
    s.checkCounter index component counter size = .ok given ↔
      s.values? component counter = given ∧ ∀ values, given = some values → values.length = size := by
  unfold checkCounter values?
  cases s.counter? component counter with
  | none => simp +contextual [CounterReader.valuesOf, eq_comm]
  | some c =>
    unfold CounterReader.valuesOf
    dsimp only
    split
    · rename_i same
      constructor
      · intro ok
        cases ok
        exact ⟨rfl, by rintro values ⟨⟩; exact same⟩
      · rintro ⟨rfl, -⟩
        rfl
    · rename_i different
      constructor
      · intro ok
        cases ok
      · rintro ⟨rfl, length⟩
        exact absurd (length c.values rfl) different

theorem requireCounter_eq_ok_iff :
    s.requireCounter index component counter size = .ok () ↔
      ∃ values, s.values? component counter = some values ∧ values.length = size := by
  unfold requireCounter
  rw [bind_eq_ok_iff]
  constructor
  · rintro ⟨given, checked, found⟩
    obtain ⟨rfl, length⟩ := checkCounter_eq_ok_iff.1 checked
    cases present : s.values? component counter with
    | none => simp [present, throw, throwThe, MonadExceptOf.throw] at found
    | some values => exact ⟨values, rfl, length values present⟩
  · rintro ⟨values, present, length⟩
    refine ⟨some values, checkCounter_eq_ok_iff.2 ⟨present, ?_⟩, rfl⟩
    rintro values' ⟨⟩
    exact length

theorem check_eq_ok_iff {u : Unit} : s.check config index = .ok u ↔ s.Complete config := by
  unfold check checkCore checkCache
  simp only [bind_eq_ok_iff, forM_eq_ok_iff]
  constructor
  · rintro ⟨⟨⟩, cores, caches⟩
    refine ⟨fun c required => ?_, fun c values present => ?_, fun cache member c called => ?_⟩
    · have checked := cores c (CoreCounter.mem_all c)
      rw [if_pos required] at checked
      obtain ⟨values, present, -⟩ := requireCounter_eq_ok_iff.1 checked
      rw [present]
      rfl
    · have checked := cores c (CoreCounter.mem_all c)
      split at checked
      · obtain ⟨values', present', length⟩ := requireCounter_eq_ok_iff.1 checked
        cases present.symm.trans present'
        exact length
      · obtain ⟨given, checked, -⟩ := map_eq_ok_iff.1 checked
        obtain ⟨rfl, length⟩ := checkCounter_eq_ok_iff.1 checked
        exact length values present
    · have checked := caches cache member c (CacheCounter.mem_all c)
      rw [if_neg (by simp [called])] at checked
      exact requireCounter_eq_ok_iff.1 checked
  · intro complete
    refine ⟨(), fun c _ => ?_, fun cache member c _ => ?_⟩
    · split
      · rename_i required
        obtain ⟨values, present⟩ := Option.isSome_iff_exists.1 (complete.required c required)
        exact requireCounter_eq_ok_iff.2 ⟨values, present, complete.cores c values present⟩
      · exact map_eq_ok_iff.2 ⟨_, checkCounter_eq_ok_iff.2 ⟨rfl, complete.cores c⟩, rfl⟩
    · split
      · rfl
      · rename_i called
        exact requireCounter_eq_ok_iff.2 (complete.caches cache member c (by simpa using called))

end RawSnapshot

theorem Snapshot.ofRaw_eq_ok_iff {config : Config} {index : Nat} {raw : RawSnapshot} {s : Snapshot} :
    Snapshot.ofRaw config index raw = .ok s ↔ raw.Complete config ∧ raw.view config = s := by
  rw [Snapshot.ofRaw_eq, bind_eq_ok_iff]
  simp only [RawSnapshot.check_eq_ok_iff, pure_eq_ok_iff, exists_const]

/-- The snapshot has one value for each instance in every list of values. -/
structure Snapshot.Fits (config : Config) (s : Snapshot) : Prop where
  cores : ∀ c values, s.core c = some values → values.length = config.cores
  caches : ∀ (position : Nat) cache, config.caches[position]? = some cache →
    ∀ c, ∃ values, s.cache position c = .ok values ∧ values.length = cache.instances

theorem RawSnapshot.Complete.view_fits {config : Config} {s : RawSnapshot}
    (complete : s.Complete config) : (s.view config).Fits config := by
  refine ⟨fun c values present => ?_, fun position cache present c => ?_⟩
  · rw [core_view] at present
    exact complete.cores c values present
  · refine ⟨s.cacheValues cache c, cache_view present c, ?_⟩
    unfold cacheValues
    split
    · exact List.length_replicate
    · rename_i called
      obtain ⟨values, found, length⟩ :=
        complete.caches cache (List.mem_of_getElem? present) c (by simpa using called)
      rw [found]
      exact length

/-! ## Whole traces -/

namespace Trace

variable {config : Config} {trace : Trace} {raws : List RawSnapshot}

theorem checkUniform_eq_ok_iff {coreGroup : String} {counter : CoreCounter} {u : Unit} :
    (trace.checkUniform coreGroup counter).outcome = .ok u ↔
      ∀ s ∈ trace.snapshots, (s.core counter).isSome = trace.reports counter := by
  unfold checkUniform
  dsimp only
  split
  · rename_i index found
    constructor
    · intro ok
      cases ok
    · intro uniform
      have member := List.findIdx?_eq_some_iff_getElem.1 found
      obtain ⟨bound, differs, -⟩ := member
      have same := uniform _ (List.getElem_mem bound)
      simp [same] at differs
  · rename_i missing
    have uniform := List.findIdx?_eq_none_iff.1 missing
    constructor
    · intro _ s member
      simpa using uniform s member
    · intro _
      split <;> rfl

theorem mapM_ofRaw_eq_ok_iff {start : Nat} {snapshots : List Snapshot} :
    (raws.zipIdx start).mapM (fun r => Snapshot.ofRaw config r.2 r.1) = .ok snapshots ↔
      snapshots = raws.map (·.view config) ∧ ∀ raw ∈ raws, raw.Complete config := by
  induction raws generalizing start snapshots with
  | nil =>
    rw [List.zipIdx_nil, List.mapM_nil, pure_eq_ok_iff]
    simp [eq_comm]
  | cons raw raws ih =>
    simp only [List.zipIdx_cons, List.mapM_cons, bind_eq_ok_iff, pure_eq_ok_iff, ih,
      Snapshot.ofRaw_eq_ok_iff, List.map_cons, List.forall_mem_cons]
    constructor
    · rintro ⟨s, ⟨complete, rfl⟩, rest, ⟨rfl, others⟩, rfl⟩
      exact ⟨rfl, complete, others⟩
    · rintro ⟨rfl, complete, others⟩
      exact ⟨_, ⟨complete, rfl⟩, _, ⟨rfl, others⟩, rfl⟩

/-- Stored snapshots load exactly if each has what the configuration calls for, there is a first one,
and all report the counters that it reports. -/
theorem ofRaw_eq_ok_iff :
    (ofRaw config raws).outcome = .ok trace ↔
      trace.snapshots = raws.map (·.view config) ∧ (∀ raw ∈ raws, raw.Complete config) ∧
      ∀ s ∈ trace.snapshots, ∀ c, (s.core c).isSome = trace.reports c := by
  unfold ofRaw
  rw [Logged.outcome_bind, Logged.outcome_ofExcept, bind_eq_ok_iff]
  simp only [mapM_ofRaw_eq_ok_iff]
  constructor
  · rintro ⟨loaded, ⟨views, complete⟩, checked⟩
    cases loaded with
    | nil => cases checked
    | cons baseline later =>
      simp only [Logged.outcome_bind, Logged.outcome_forM, bind_eq_ok_iff, forM_eq_ok_iff,
        checkUniform_eq_ok_iff] at checked
      obtain ⟨-, uniform, -, -, -, -, built⟩ := checked
      cases built
      exact ⟨views, complete, fun s member c => uniform c (CoreCounter.mem_all c) s member⟩
  · rintro ⟨views, complete, uniform⟩
    obtain ⟨baseline, later⟩ := trace
    refine ⟨baseline :: later, ⟨views, complete⟩, ?_⟩
    simp only [Logged.outcome_bind, Logged.outcome_forM, bind_eq_ok_iff, forM_eq_ok_iff,
      checkUniform_eq_ok_iff]
    exact ⟨(), fun c _ s member => uniform s member c, (), fun _ _ => rfl, (), rfl, rfl⟩

/-- A loaded trace reports the counters that every kind of core has. -/
theorem reports_of_isRequired (loaded : (ofRaw config raws).outcome = .ok trace) {c : CoreCounter}
    (required : c.isRequired = true) : trace.reports c = true := by
  obtain ⟨views, complete, -⟩ := ofRaw_eq_ok_iff.1 loaded
  have baseline : trace.baseline ∈ raws.map (·.view config) := views ▸ List.mem_cons_self ..
  obtain ⟨raw, given, view⟩ := List.mem_map.1 baseline
  rw [reports, ← view, RawSnapshot.core_view]
  exact (complete raw given).required c required

/-- Every list of values of the trace has one value for each instance, and all snapshots report the
same counters of the cores. -/
structure Fits (config : Config) (trace : Trace) : Prop where
  snapshots : ∀ s ∈ trace.snapshots, s.Fits config
  uniform : ∀ s ∈ trace.snapshots, ∀ c, (s.core c).isSome = trace.reports c

theorem fits_of_ofRaw (loaded : (ofRaw config raws).outcome = .ok trace) : trace.Fits config := by
  obtain ⟨views, complete, uniform⟩ := ofRaw_eq_ok_iff.1 loaded
  refine ⟨fun s member => ?_, uniform⟩
  rw [views] at member
  obtain ⟨raw, given, rfl⟩ := List.mem_map.1 member
  exact (complete raw given).view_fits

/-- Stored snapshots whose counters are all there load as what is looked up in them. Both conditions are
computed from the stored snapshots. -/
theorem ofRaw_of_checks {first : RawSnapshot} {rest : List RawSnapshot}
    (complete : (first :: rest).all (fun raw => (raw.check config 0).isOk) = true)
    (uniform : (first :: rest).all (fun raw => CoreCounter.all.all fun c =>
      (raw.values? config.coreGroup.name c.name).isSome
        == (first.values? config.coreGroup.name c.name).isSome) = true) :
    (ofRaw config (first :: rest)).outcome =
      .ok ⟨first.view config, rest.map (·.view config)⟩ := by
  rw [List.all_eq_true] at complete uniform
  refine ofRaw_eq_ok_iff.2 ⟨rfl, fun raw given => ?_, fun s member c => ?_⟩
  · have passed := complete raw given
    cases checked : raw.check config 0 with
    | ok u => exact RawSnapshot.check_eq_ok_iff.1 checked
    | error e =>
      rw [checked] at passed
      cases passed
  · obtain ⟨raw, given, rfl⟩ := List.mem_map.1 (show s ∈ (first :: rest).map (·.view config) from member)
    have same := List.all_eq_true.1 (uniform raw given) c (CoreCounter.mem_all c)
    simpa [reports] using same

end Trace

/-! ## A sample -/

namespace Sample

def cache (level : Nat) (name : String) (instances : Nat) : Cache where
  id := ⟨level, name⟩
  ways := 8
  instances := instances
  latency := 4
  size := 32768

/-- Two cores that share a data cache and all caches beyond the first level. -/
def config : Config where
  phaseLength := 10000
  frequency := 2000
  lineSize := 64
  coreGroup := { name := "westmere", cores := 2, kind := .outOfOrder }
  caches := [cache 1 "l1d" 1, cache 1 "l1i" 2, cache 2 "l2" 1, cache 3 "l3" 1]
  distinct := by decide

/-- The counters after `n` units of work; the counters of the last-level cache are given apart. -/
def raw (phase : UInt64) (mode : Int64) (n last : UInt64) : RawSnapshot where
  phase := phase
  mode := mode
  components := .ofList [
    ("westmere", .ofList (CoreCounter.all.map fun c => (c.name, .array [16 * n, 32 * n]))),
    ("l1d", counters (.scalar n)),
    ("l1i", counters (.array [n, 2 * n])),
    ("l2", counters (.scalar n)),
    ("l3", counters (.scalar last))]
where
  counters (value : RawCounter) : Table RawCounter :=
    .ofList (CacheCounter.all.map fun c => (c.name, value))

/-- Three intervals, of modes 1, 0 and 1. In the second one the counters of the last level fall. -/
def raws : List RawSnapshot :=
  [raw 0 0 1 5, raw 4 1 3 9, raw 9 0 4 2, raw 9 1 8 7]

def trace : Trace where
  baseline := (raw 0 0 1 5).view config
  later := [(raw 4 1 3 9).view config, (raw 9 0 4 2).view config, (raw 9 1 8 7).view config]

theorem loaded : (Trace.ofRaw config raws).outcome = .ok trace :=
  Trace.ofRaw_of_checks (by decide +kernel) (by decide +kernel)

end Sample

end IntervalStats
