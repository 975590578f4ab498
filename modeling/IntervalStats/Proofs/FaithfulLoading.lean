import IntervalStats.Proofs.LoadedTrace

/-!
# Faithful loading

Which stored snapshots make a trace, and what the trace then holds. `Config.Describes` lists what a
configuration asks of stored snapshots by the names that their counters are stored under, and
`Snapshot.Shows` says that a snapshot has the values that are stored and no others.
`Trace.ofRaw_faithful` says that loading accepts exactly the snapshots that the configuration describes,
that it keeps them in order, and that what the configuration does not ask for has no influence, not
even on an error. The configuration is any, so the cores and a cache may share one component.
-/

namespace IntervalStats

/-! ## Stored values -/

namespace RawSnapshot

/-- The stored snapshot has these values for a counter of a component. A single number is a list of
one. -/
inductive Holds (s : RawSnapshot) (component counter : String) : List UInt64 → Prop where
  | scalar {counters : Table RawCounter} {value : UInt64}
      (listed : (component, counters) ∈ s.components.entries)
      (stored : (counter, .scalar value) ∈ counters.entries) : Holds s component counter [value]
  | array {counters : Table RawCounter} {values : List UInt64}
      (listed : (component, counters) ∈ s.components.entries)
      (stored : (counter, .array values) ∈ counters.entries) : Holds s component counter values

/-- The stored snapshot has so many values for a counter of a component. -/
def HoldsCount (s : RawSnapshot) (component counter : String) (n : Nat) : Prop :=
  ∃ values, s.Holds component counter values ∧ values.length = n

variable {s : RawSnapshot} {component counter : String} {values : List UInt64}

theorem values?_eq_some_iff : s.values? component counter = some values ↔ s.Holds component counter values := by
  simp only [values?, counter?, Option.map_eq_some_iff, Option.bind_eq_some_iff, Table.get?_eq_some_iff]
  constructor
  · rintro ⟨given, ⟨counters, listed, stored⟩, rfl⟩
    cases given with
    | scalar value => exact .scalar listed stored
    | array values => exact .array listed stored
  · rintro (⟨listed, stored⟩ | ⟨listed, stored⟩)
    · exact ⟨_, ⟨_, listed, stored⟩, rfl⟩
    · exact ⟨_, ⟨_, listed, stored⟩, rfl⟩

theorem isSome_values?_iff :
    (s.values? component counter).isSome = true ↔ ∃ values, s.Holds component counter values := by
  simp only [Option.isSome_iff_exists, values?_eq_some_iff]

theorem values?_congr {other : RawSnapshot}
    (same : ∀ values, s.Holds component counter values ↔ other.Holds component counter values) :
    s.values? component counter = other.values? component counter := by
  apply Option.ext
  intro values
  rw [values?_eq_some_iff, values?_eq_some_iff, same]

end RawSnapshot

/-! ## What a configuration asks for -/

/-- The names of the counters that every kind of core reports. -/
def requiredCounters : List String :=
  ["instrs", "cycles"]

/-- The names of the counters that a kind of core may leave out. -/
def optionalCounters : List String :=
  ["mispredBranches", "predBranches", "branchUops", "fpAddSubUops", "fpMulDivUops", "uops"]

/-- The names of the counters of a cache. Those of its filter are asked for on the first level only. -/
def CacheId.calledCounters (id : CacheId) : List String :=
  ["hGETS", "mGETS", "hGETX", "mGETXIM", "mGETXSM"] ++ if id.level = 1 then ["fhGETS", "fhGETX"] else []

theorem forall_requiredCounters {P : String → Prop} :
    (∀ name ∈ requiredCounters, P name) ↔ ∀ c : CoreCounter, c.isRequired = true → P c.name := by
  simp only [requiredCounters, List.forall_mem_cons]
  constructor
  · rintro ⟨instructions, cycles, -⟩ c required
    cases c with
    | instructions => exact instructions
    | cycles => exact cycles
    | _ => cases required
  · intro all
    exact ⟨all .instructions rfl, all .cycles rfl, List.forall_mem_nil _⟩

theorem forall_optionalCounters {P : String → Prop} :
    (∀ name ∈ optionalCounters, P name) ↔ ∀ c : CoreCounter, c.isRequired = false → P c.name := by
  simp only [optionalCounters, List.forall_mem_cons]
  constructor
  · rintro ⟨mispredicted, predicted, branch, fpAddSub, fpMulDiv, uops, -⟩ c optional
    cases c with
    | instructions => cases optional
    | cycles => cases optional
    | mispredictedBranches => exact mispredicted
    | predictedBranches => exact predicted
    | branchUops => exact branch
    | fpAddSubUops => exact fpAddSub
    | fpMulDivUops => exact fpMulDiv
    | uops => exact uops
  · intro all
    exact ⟨all .mispredictedBranches rfl, all .predictedBranches rfl, all .branchUops rfl,
      all .fpAddSubUops rfl, all .fpMulDivUops rfl, all .uops rfl, List.forall_mem_nil _⟩

theorem CacheId.lacks_eq_true_iff {id : CacheId} {c : CacheCounter} :
    id.lacks c = true ↔ c.isFilter = true ∧ id.level ≠ 1 := by
  simp [lacks, isFirstLevel]

theorem CacheId.lacks_eq_false_iff {id : CacheId} {c : CacheCounter} :
    id.lacks c = false ↔ (c.isFilter = true → id.level = 1) := by
  cases filter : c.isFilter <;> simp [lacks, isFirstLevel, filter]

theorem forall_calledCounters {id : CacheId} {P : String → Prop} :
    (∀ name ∈ id.calledCounters, P name) ↔ ∀ c : CacheCounter, id.lacks c = false → P c.name := by
  simp only [CacheId.calledCounters, List.forall_mem_append, List.forall_mem_cons,
    CacheId.lacks_eq_false_iff]
  constructor
  · rintro ⟨⟨loadHits, loadMisses, storeHits, invalid, shared, -⟩, filter⟩ c called
    have ofFilter (first : id.level = 1) : P "fhGETS" ∧ P "fhGETX" := by
      simpa [first] using filter
    cases c with
    | filterLoadHits => exact (ofFilter (called rfl)).1
    | filterStoreHits => exact (ofFilter (called rfl)).2
    | loadHits => exact loadHits
    | loadMisses => exact loadMisses
    | storeHits => exact storeHits
    | storeMissesInvalid => exact invalid
    | storeMissesShared => exact shared
  · intro all
    refine ⟨⟨all .loadHits nofun, all .loadMisses nofun, all .storeHits nofun,
      all .storeMissesInvalid nofun, all .storeMissesShared nofun, List.forall_mem_nil _⟩, ?_⟩
    by_cases first : id.level = 1
    · rw [if_pos first, List.forall_mem_cons, List.forall_mem_singleton]
      exact ⟨all .filterLoadHits fun _ => first, all .filterStoreHits fun _ => first⟩
    · simp [first]

/-- What a configuration asks of stored snapshots. -/
structure Config.Describes (config : Config) (raws : List RawSnapshot) : Prop where
  baseline : raws ≠ []
  required : ∀ raw ∈ raws, ∀ counter ∈ requiredCounters,
    raw.HoldsCount config.coreGroup.name counter config.cores
  optional : ∀ counter ∈ optionalCounters,
    (∀ raw ∈ raws, ∀ values, ¬raw.Holds config.coreGroup.name counter values) ∨
    ∀ raw ∈ raws, raw.HoldsCount config.coreGroup.name counter config.cores
  caches : ∀ raw ∈ raws, ∀ cache ∈ config.caches, ∀ counter ∈ cache.id.calledCounters,
    raw.HoldsCount cache.id.name counter cache.instances

theorem RawSnapshot.complete_iff {config : Config} {raw : RawSnapshot} :
    raw.Complete config ↔
      (∀ c : CoreCounter, c.isRequired = true →
        raw.HoldsCount config.coreGroup.name c.name config.cores) ∧
      (∀ (c : CoreCounter) values, raw.Holds config.coreGroup.name c.name values →
        values.length = config.cores) ∧
      ∀ cache ∈ config.caches, ∀ c : CacheCounter, cache.id.lacks c = false →
        raw.HoldsCount cache.id.name c.name cache.instances := by
  constructor
  · rintro ⟨required, cores, caches⟩
    simp only [isSome_values?_iff, values?_eq_some_iff] at required cores caches
    refine ⟨fun c needed => ?_, cores, caches⟩
    obtain ⟨values, held⟩ := required c needed
    exact ⟨values, held, cores c values held⟩
  · rintro ⟨required, cores, caches⟩
    refine ⟨fun c needed => ?_, ?_, ?_⟩
    · obtain ⟨values, held, -⟩ := required c needed
      exact isSome_values?_iff.2 ⟨values, held⟩
    · simpa only [values?_eq_some_iff] using cores
    · simpa only [values?_eq_some_iff, HoldsCount] using caches

namespace Trace

variable {config : Config} {raws : List RawSnapshot}

/-- All snapshots have the counters of the cores that the first one has if each of these counters is there
in all of them or in none. -/
theorem uniform_iff {first : RawSnapshot} {rest : List RawSnapshot} :
    (∀ s ∈ (first :: rest).map (·.view config), ∀ c : CoreCounter,
      (s.core c).isSome = ((first.view config).core c).isSome) ↔
      ∀ c : CoreCounter,
        (∀ raw ∈ first :: rest, ∀ values, ¬raw.Holds config.coreGroup.name c.name values) ∨
        ∀ raw ∈ first :: rest, ∃ values, raw.Holds config.coreGroup.name c.name values := by
  have isSome_iff (raw : RawSnapshot) (c : CoreCounter) : ((raw.view config).core c).isSome = true ↔
      ∃ values, raw.Holds config.coreGroup.name c.name values := by
    rw [RawSnapshot.core_view, RawSnapshot.isSome_values?_iff]
  have isNone_iff (raw : RawSnapshot) (c : CoreCounter) : ((raw.view config).core c).isSome = false ↔
      ∀ values, ¬raw.Holds config.coreGroup.name c.name values := by
    rw [← not_exists, ← isSome_iff, Bool.not_eq_true]
  have head : first ∈ first :: rest := List.mem_cons_self ..
  rw [List.forall_mem_map]
  constructor
  · intro uniform c
    cases reported : ((first.view config).core c).isSome with
    | true => exact .inr fun raw given => (isSome_iff raw c).1 ((uniform raw given c).trans reported)
    | false => exact .inl fun raw given => (isNone_iff raw c).1 ((uniform raw given c).trans reported)
  · intro settled raw given c
    rcases settled c with absent | present
    · rw [(isNone_iff raw c).2 (absent raw given), (isNone_iff first c).2 (absent first head)]
    · rw [(isSome_iff raw c).2 (present raw given), (isSome_iff first c).2 (present first head)]

/-- Stored snapshots make a trace if there is a first one, each is complete, and each counter of the cores
is there in all of them or in none. -/
theorem exists_ofRaw_iff :
    (∃ trace, (ofRaw config raws).outcome = .ok trace) ↔
      raws ≠ [] ∧ (∀ raw ∈ raws, raw.Complete config) ∧
      ∀ c : CoreCounter,
        (∀ raw ∈ raws, ∀ values, ¬raw.Holds config.coreGroup.name c.name values) ∨
        ∀ raw ∈ raws, ∃ values, raw.Holds config.coreGroup.name c.name values := by
  simp only [ofRaw_eq_ok_iff]
  constructor
  · rintro ⟨⟨baseline, later⟩, views, complete, uniform⟩
    cases raws with
    | nil => cases views
    | cons first rest =>
      cases views
      exact ⟨List.cons_ne_nil _ _, complete, uniform_iff.1 uniform⟩
  · rintro ⟨nonempty, complete, uniform⟩
    cases raws with
    | nil => exact absurd rfl nonempty
    | cons first rest =>
      refine ⟨⟨first.view config, rest.map (·.view config)⟩, rfl, complete, ?_⟩
      exact uniform_iff.2 uniform

theorem exists_ofRaw_iff_describes :
    (∃ trace, (ofRaw config raws).outcome = .ok trace) ↔ config.Describes raws := by
  simp only [exists_ofRaw_iff, RawSnapshot.complete_iff]
  constructor
  · rintro ⟨nonempty, complete, uniform⟩
    refine ⟨nonempty, fun raw given => ?_, ?_, fun raw given cache listed => ?_⟩
    · exact forall_requiredCounters.2 (complete raw given).1
    · refine forall_optionalCounters.2 fun c _ => (uniform c).imp_right fun present raw given => ?_
      obtain ⟨values, held⟩ := present raw given
      exact ⟨values, held, (complete raw given).2.1 c values held⟩
    · exact forall_calledCounters.2 ((complete raw given).2.2 cache listed)
  · rintro ⟨nonempty, required, optional, caches⟩
    -- A counter of the cores is there in all snapshots, of the right length, or in none.
    have cores (c : CoreCounter) :
        (∀ raw ∈ raws, ∀ values, ¬raw.Holds config.coreGroup.name c.name values) ∨
        ∀ raw ∈ raws, raw.HoldsCount config.coreGroup.name c.name config.cores := by
      cases kind : c.isRequired with
      | true => exact .inr fun raw given => forall_requiredCounters.1 (required raw given) c kind
      | false => exact forall_optionalCounters.1 optional c kind
    refine ⟨nonempty, fun raw given => ⟨?_, fun c values held => ?_, fun cache listed => ?_⟩, fun c => ?_⟩
    · exact forall_requiredCounters.1 (required raw given)
    · rcases cores c with absent | present
      · exact absurd held (absent raw given values)
      · obtain ⟨values', held', length⟩ := present raw given
        rw [← RawSnapshot.values?_eq_some_iff] at held held'
        cases held.symm.trans held'
        exact length
    · exact forall_calledCounters.1 (caches raw given cache listed)
    · refine (cores c).imp_right fun present raw given => ?_
      obtain ⟨values, held, -⟩ := present raw given
      exact ⟨values, held⟩

end Trace

/-! ## What a trace keeps -/

/-- The counters of the cores with the names that they are stored under. -/
def coreCounterNames : List (CoreCounter × String) :=
  [(.instructions, "instrs"), (.cycles, "cycles"), (.mispredictedBranches, "mispredBranches"),
    (.predictedBranches, "predBranches"), (.branchUops, "branchUops"), (.fpAddSubUops, "fpAddSubUops"),
    (.fpMulDivUops, "fpMulDivUops"), (.uops, "uops")]

/-- The counters of the caches with the names that they are stored under. -/
def cacheCounterNames : List (CacheCounter × String) :=
  [(.filterLoadHits, "fhGETS"), (.loadHits, "hGETS"), (.loadMisses, "mGETS"),
    (.filterStoreHits, "fhGETX"), (.storeHits, "hGETX"), (.storeMissesInvalid, "mGETXIM"),
    (.storeMissesShared, "mGETXSM")]

theorem mem_coreCounterNames_iff {c : CoreCounter} {counter : String} :
    (c, counter) ∈ coreCounterNames ↔ counter = c.name := by
  cases c <;> simp [coreCounterNames, CoreCounter.name]

theorem mem_cacheCounterNames_iff {c : CacheCounter} {counter : String} :
    (c, counter) ∈ cacheCounterNames ↔ counter = c.name := by
  cases c <;> simp [cacheCounterNames, CacheCounter.name]

/-- The snapshot has the phase, the mode and the values of a stored one. It has all counters of the cores
that are stored, and of the caches, in the order of the configuration, those that it calls for; caches
beyond the first level have no hits in a filter. -/
structure Snapshot.Shows (config : Config) (raw : RawSnapshot) (s : Snapshot) : Prop where
  phase_eq : s.phase = raw.phase
  mode_eq : s.mode = raw.mode
  core_iff : ∀ c counter, (c, counter) ∈ coreCounterNames → ∀ values,
    s.core c = some values ↔ raw.Holds config.coreGroup.name counter values
  caches_length : s.caches.length = config.caches.length
  cache : ∀ (position : Nat) cache, config.caches[position]? = some cache →
    ∀ c counter, (c, counter) ∈ cacheCounterNames → ∃ values, s.cache position c = .ok values ∧
      if counter ∈ ["fhGETS", "fhGETX"] ∧ cache.id.level ≠ 1 then
        values = List.replicate cache.instances 0
      else raw.Holds cache.id.name counter values

theorem CacheId.lacks_iff_name {id : CacheId} {c : CacheCounter} :
    id.lacks c = true ↔ c.name ∈ ["fhGETS", "fhGETX"] ∧ id.level ≠ 1 := by
  have filter : c.isFilter = true ↔ c.name ∈ ["fhGETS", "fhGETX"] := by cases c <;> decide
  rw [lacks_eq_true_iff, filter]

theorem RawSnapshot.Complete.view_shows {config : Config} {raw : RawSnapshot}
    (complete : raw.Complete config) : Snapshot.Shows config raw (raw.view config) where
  phase_eq := rfl
  mode_eq := rfl
  core_iff c counter named values := by
    rw [mem_coreCounterNames_iff.1 named, core_view, values?_eq_some_iff]
  caches_length := List.length_map _
  cache position cache configured c counter named := by
    refine ⟨raw.cacheValues cache c, cache_view configured c, ?_⟩
    rw [mem_cacheCounterNames_iff.1 named]
    simp only [cacheValues, ← CacheId.lacks_iff_name]
    split
    · rfl
    · rename_i called
      obtain ⟨values, found, -⟩ :=
        complete.caches cache (List.mem_of_getElem? configured) c (by simpa using called)
      rw [found]
      exact values?_eq_some_iff.1 found

/-! ## What does not matter -/

/-- The stored snapshots differ at most in what a configuration does not ask for. -/
structure RawSnapshot.AlikeFor (config : Config) (raw other : RawSnapshot) : Prop where
  phase_eq : raw.phase = other.phase
  mode_eq : raw.mode = other.mode
  core_iff : ∀ counter ∈ requiredCounters ++ optionalCounters, ∀ values,
    raw.Holds config.coreGroup.name counter values ↔ other.Holds config.coreGroup.name counter values
  cache_iff : ∀ cache ∈ config.caches, ∀ counter ∈ cache.id.calledCounters, ∀ values,
    raw.Holds cache.id.name counter values ↔ other.Holds cache.id.name counter values

namespace RawSnapshot

variable {config : Config} {raw other : RawSnapshot} {component counter : String}

theorem checkCounter_congr (same : raw.values? component counter = other.values? component counter)
    (index size : Nat) :
    raw.checkCounter index component counter size = other.checkCounter index component counter size := by
  unfold values? at same
  unfold checkCounter
  cases here : raw.counter? component counter with
  | none =>
    cases there : other.counter? component counter with
    | none => rfl
    | some given => simp [here, there] at same
  | some given =>
    cases there : other.counter? component counter with
    | none => simp [here, there] at same
    | some given' =>
      have values : given.values = given'.values := by simpa [here, there] using same
      simp only [CounterReader.valuesOf, values]

namespace AlikeFor

theorem core_values?_eq (alike : AlikeFor config raw other) (c : CoreCounter) :
    raw.values? config.coreGroup.name c.name = other.values? config.coreGroup.name c.name :=
  values?_congr (by
    obtain ⟨required, optional⟩ := List.forall_mem_append.1 alike.core_iff
    cases kind : c.isRequired with
    | true => exact forall_requiredCounters.1 required c kind
    | false => exact forall_optionalCounters.1 optional c kind)

theorem cache_values?_eq (alike : AlikeFor config raw other) {cache : Cache}
    (listed : cache ∈ config.caches) {c : CacheCounter} (called : cache.id.lacks c = false) :
    raw.values? cache.id.name c.name = other.values? cache.id.name c.name :=
  values?_congr (forall_calledCounters.1 (alike.cache_iff cache listed) c called)

theorem check_eq (alike : AlikeFor config raw other) (index : Nat) :
    raw.check config index = other.check config index := by
  have cores (c : CoreCounter) := checkCounter_congr (alike.core_values?_eq c) index config.coreGroup.cores
  have caches : ∀ cache ∈ config.caches, ∀ c : CacheCounter, cache.id.lacks c = false →
      raw.checkCounter index cache.id.name c.name cache.instances =
        other.checkCounter index cache.id.name c.name cache.instances :=
    fun cache listed c called => checkCounter_congr (alike.cache_values?_eq listed called) index _
  unfold check
  congr 1
  · exact forM_congr fun c _ => by simp only [checkCore, requireCounter, cores]
  · funext _
    refine forM_congr fun cache listed => forM_congr fun c _ => ?_
    unfold checkCache
    cases called : cache.id.lacks c with
    | true => rfl
    | false => simp only [requireCounter, caches cache listed c called]

theorem view_eq (alike : AlikeFor config raw other) : raw.view config = other.view config := by
  unfold view
  congr 1
  · exact alike.phase_eq
  · exact alike.mode_eq
  · exact List.map_congr_left fun c _ => alike.core_values?_eq c
  · refine List.map_congr_left fun cache listed => List.map_congr_left fun c _ => ?_
    unfold cacheValues
    cases called : cache.id.lacks c with
    | true => rfl
    | false => rw [alike.cache_values?_eq listed called]

end AlikeFor

end RawSnapshot

theorem Snapshot.ofRaw_congr {config : Config} {raw other : RawSnapshot}
    (alike : RawSnapshot.AlikeFor config raw other) (index : Nat) :
    Snapshot.ofRaw config index raw = Snapshot.ofRaw config index other := by
  rw [Snapshot.ofRaw_eq, Snapshot.ofRaw_eq, alike.check_eq, alike.view_eq]

theorem Trace.ofRaw_congr {config : Config} {raws others : List RawSnapshot}
    (alike : List.Forall₂ (RawSnapshot.AlikeFor config) raws others) :
    Trace.ofRaw config raws = Trace.ofRaw config others := by
  have each (start : Nat) : (raws.zipIdx start).mapM (fun r => Snapshot.ofRaw config r.2 r.1) =
      (others.zipIdx start).mapM fun r => Snapshot.ofRaw config r.2 r.1 := by
    induction alike generalizing start with
    | nil => rfl
    | cons first _ ih => simp only [List.zipIdx_cons, List.mapM_cons, ih, Snapshot.ofRaw_congr first]
  unfold ofRaw
  rw [each]

/-- Loading accepts exactly the stored snapshots that the configuration describes. It gives one snapshot
for each, in order, with what is stored. Whatever else is stored changes nothing: neither the trace nor
an error nor what is logged. -/
theorem Trace.ofRaw_faithful (config : Config) (raws : List RawSnapshot) :
    ((∃ trace, (Trace.ofRaw config raws).outcome = .ok trace) ↔ config.Describes raws) ∧
    (∀ trace, (Trace.ofRaw config raws).outcome = .ok trace →
      List.Forall₂ (Snapshot.Shows config) raws trace.snapshots) ∧
    ∀ others, List.Forall₂ (RawSnapshot.AlikeFor config) raws others →
      Trace.ofRaw config raws = Trace.ofRaw config others := by
  refine ⟨exists_ofRaw_iff_describes, fun trace loaded => ?_, fun others => ofRaw_congr⟩
  obtain ⟨views, complete, -⟩ := ofRaw_eq_ok_iff.1 loaded
  rw [views, List.forall₂_map_right_iff, List.forall₂_same]
  intro raw given
  exact (complete raw given).view_shows

namespace Sample

/-- A core group that has the name of a cache. -/
def sharedConfig : Config where
  phaseLength := 10000
  frequency := 2000
  lineSize := 64
  coreGroup := { name := "l2", cores := 2, kind := .simple }
  caches := [cache 1 "l1d" 1, cache 2 "l2" 2]
  distinct := by decide

/-- One component has the counters of the cores and those of the cache, and counters of a filter besides,
which the second level does not call for. -/
def sharedRaw : RawSnapshot where
  phase := 3
  mode := -1
  components := .ofList [
    ("l1d", .ofList [("fhGETS", .scalar 21), ("hGETS", .array [22]), ("mGETS", .scalar 23),
      ("fhGETX", .scalar 24), ("hGETX", .scalar 25), ("mGETXIM", .scalar 26), ("mGETXSM", .scalar 27)]),
    ("l2", .ofList [("instrs", .array [5, 6]), ("cycles", .array [7, 8]), ("fhGETS", .array [31, 41]),
      ("hGETS", .array [32, 42]), ("mGETS", .array [33, 43]), ("hGETX", .array [35, 45]),
      ("mGETXIM", .array [36, 46]), ("mGETXSM", .array [37, 47]), ("PUTS", .scalar 9)]),
    ("mem", .ofList [("rd", .scalar 9)])]

def sharedTrace : Trace where
  baseline := sharedRaw.view sharedConfig
  later := []

theorem sharedTrace_loaded : (Trace.ofRaw sharedConfig [sharedRaw]).outcome = .ok sharedTrace :=
  Trace.ofRaw_of_checks (by decide +kernel) (by decide +kernel)

end Sample

/-- Neither the cores nor the cache lose a counter to the other, and the cache has no hits in a filter. -/
theorem Trace.ofRaw_faithful_sample :
    Sample.sharedConfig.Describes [Sample.sharedRaw] ∧
    Snapshot.Shows Sample.sharedConfig Sample.sharedRaw Sample.sharedTrace.baseline ∧
    Sample.sharedTrace.baseline.core .cycles = some [7, 8] ∧
    Sample.sharedTrace.baseline.core .uops = none ∧
    Sample.sharedTrace.baseline.cache 0 .filterLoadHits = .ok [21] ∧
    Sample.sharedTrace.baseline.cache 1 .storeMissesShared = .ok [37, 47] ∧
    Sample.sharedTrace.baseline.cache 1 .filterLoadHits = .ok [0, 0] := by
  obtain ⟨accepts, shows, -⟩ := Trace.ofRaw_faithful Sample.sharedConfig [Sample.sharedRaw]
  have shown := shows Sample.sharedTrace Sample.sharedTrace_loaded
  rw [Trace.snapshots, List.forall₂_cons] at shown
  exact ⟨accepts.1 ⟨_, Sample.sharedTrace_loaded⟩, shown.1, by rfl, by rfl, by rfl, by rfl, by rfl⟩

end IntervalStats
