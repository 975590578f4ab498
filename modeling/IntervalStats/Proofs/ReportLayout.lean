import IntervalStats.Proofs.LoadedConfig
import IntervalStats.Proofs.ReportCounts
import IntervalStats.Proofs.ReportFailures

/-!
# Layout of a report

What all reports have in common. Their names are fixed, but for the two of memory, which only a cache of
the third level on the deepest level gives. No two entries share a name, so nothing that is put into a
report is lost, and every list has one element for each core. A report is also evidence about what it was
made from: all counters of the cores are reported, and no reported cache has more instances than there are
cores (`Report.HasLayout`).
-/

namespace IntervalStats

namespace Sniper

variable {a : Aggregator} {config : Config}

/-! ## Settings -/

def cacheSettingNames (category : String) : List String :=
  ["associativity", "cache_block_size", "cache_size", "data_access_time", "shared_cores",
    "dvfs_domain"].map fun field => s!"perf_model/{category}/{field}"

/-- The settings of every report. -/
def settingNames : List String :=
  fixedSettings.map (·.1) ++
    ["general/total_cores", "perf_model/cache/levels", "perf_model/core/frequency",
      "perf_model/core/type", "perf_model/core/rob_timer/in_order"] ++
    reportedCaches.flatMap fun r => cacheSettingNames r.category

theorem nodup_settingNames : settingNames.Nodup := by
  decide +kernel

theorem names_of_settings {entries : List (String × Entry)} (given : settings config = .ok entries) :
    entries.map (·.1) = settingNames := by
  obtain ⟨caches, each, rfl⟩ := settings_eq_ok_iff.1 given
  have ofCaches {reported : List ReportedCache} {caches : List (List (String × Entry))}
      (each : List.Forall₂ (fun r part => ∃ found, config.findCache r.name = .ok found ∧
        cacheSettings config found.2 r.category = part) reported caches) :
      caches.flatten.map (·.1) = reported.flatMap fun r => cacheSettingNames r.category := by
    induction each with
    | nil => rfl
    | cons first _ ih =>
      obtain ⟨found, -, rfl⟩ := first
      rw [List.flatten_cons, List.map_append, ih, List.flatMap_cons]
      rfl
  rw [List.map_append, List.map_append, ofCaches each]
  rfl

/-- How many elements an entry has, if it is a list. -/
def Entry.length? : Entry → Option Nat
  | int _ | text _ => none
  | ints values => some values.length
  | floats values => some values.length

theorem length?_of_settings {entries : List (String × Entry)} (given : settings config = .ok entries) :
    ∀ e ∈ entries, e.2.length? = none := by
  obtain ⟨caches, each, rfl⟩ := settings_eq_ok_iff.1 given
  refine List.forall_mem_append.2 ⟨List.forall_mem_append.2 ⟨?_, ?_⟩, ?_⟩
  · simp [fixedSettings, Entry.length?]
  · simp [coreSettings, Entry.length?]
  · intro e member
    obtain ⟨part, listed, held⟩ := List.mem_flatten.1 member
    obtain ⟨r, -, found, -, rfl⟩ := exists_mem_of_forall₂ each.flip listed
    have single : ∀ e ∈ cacheSettings config found.2 r.category, e.2.length? = none := by
      simp [cacheSettings, Entry.length?, Entry.ofUnsigned]
    exact single e held

/-! ## Names of the results -/

theorem nodup_allNames : (resultNames ++ memoryNames).Nodup := by
  decide +kernel

theorem names_of_section {r : ReportedCache} {entries : List (String × Entry)}
    (counted : IsCacheSection a r entries) :
    ∃ found, a.config.findCache r.name = .ok found ∧
      entries.map (·.1) =
        (if a.config.isLastLevel found.2 then memoryNames else []) ++ cacheNames r.label := by
  obtain ⟨found, counts, located, -, rfl⟩ := counted
  refine ⟨found, located, ?_⟩
  rw [List.map_append]
  split <;> rfl

/-- A name tells the level of the cache that is found under it. -/
theorem id_of_findCache (checked : config.Checked) {name : String} {id : CacheId} {found : Nat × Cache}
    (parsed : CacheId.parse name = .ok id) (located : config.findCache name = .ok found) :
    found.2.id = id := by
  obtain ⟨present, named⟩ := Config.findCache_eq_ok located
  have same := checked.named _ (List.mem_of_getElem? present)
  rw [named, parsed] at same
  exact (Except.ok.inj same).symm

/-- A cache is not on the last level if its name tells so and there is a third level. -/
theorem isLastLevel_eq_false (checked : config.Checked) {name : String} {id : CacheId}
    (parsed : CacheId.parse name = .ok id) (shallow : id.level < 3) {found last : Nat × Cache}
    (located : config.findCache name = .ok found) (locatedLast : config.findCache "l3" = .ok last) :
    config.isLastLevel found.2 = false := by
  have third : CacheId.parse "l3" = .ok ⟨3, "l3"⟩ := by decide
  have deep : last.2.id.level ≤ config.cacheLevels :=
    Config.level_le_cacheLevels (List.mem_of_getElem? (Config.findCache_eq_ok locatedLast).1)
  rw [id_of_findCache checked third locatedLast] at deep
  rw [Config.isLastLevel, id_of_findCache checked parsed located, decide_eq_false_iff_not]
  exact Nat.ne_of_lt (Nat.lt_of_lt_of_le shallow deep)

/-- Memory has entries exactly if the cache of the third level is on the deepest one. -/
theorem IsResults.exists_names {entries : List (String × Entry)} (checked : a.config.Checked)
    (given : IsResults a entries) :
    ∃ last, a.config.findCache "l3" = .ok last ∧
      (entries.map (·.1)).Perm
        (resultNames ++ if a.config.isLastLevel last.2 then memoryNames else []) := by
  obtain ⟨totals, rest, summed, timed, counted⟩ := given
  rename_i uops generic cores elapsed caches
  simp only [reportedCaches, List.forall₂_cons_left_iff, List.forall₂_nil_left_iff] at counted
  obtain ⟨l1d, _, ofL1d, ⟨l1i, _, ofL1i, ⟨l2, _, ofL2, ⟨l3, _, ofL3, rfl, rfl⟩, rfl⟩, rfl⟩, rfl⟩ :=
    counted
  obtain ⟨found3, located3, names3⟩ := names_of_section ofL3
  have shallow {r : ReportedCache} {part : List (String × Entry)} {id : CacheId}
      (counted : IsCacheSection a r part) (parsed : CacheId.parse r.name = .ok id)
      (shallow : id.level < 3) : part.map (·.1) = cacheNames r.label := by
    obtain ⟨found, located, names⟩ := names_of_section counted
    rw [names, isLastLevel_eq_false checked parsed shallow located located3]
    rfl
  -- The level of a cache is told by its name, so only the last of the four can be on the deepest one.
  have names1d := shallow ofL1d (show CacheId.parse "l1d" = .ok ⟨1, "l1d"⟩ by decide) (by decide)
  have names1i := shallow ofL1i (show CacheId.parse "l1i" = .ok ⟨1, "l1i"⟩ by decide) (by decide)
  have names2 := shallow ofL2 (show CacheId.parse "l2" = .ok ⟨2, "l2"⟩ by decide) (by decide)
  have ofUops : (uopEntries uops generic).map (·.1) = uopNames := rfl
  have ofTimes : (timeEntries a.config elapsed).map (·.1) = timeNames := rfl
  have fixed : resultNames = uopNames ++ (coreMetrics.map (·.1) ++ (timeNames ++ (cacheNames "L1-D" ++
      (cacheNames "L1-I" ++ (cacheNames "L2" ++ cacheNames "L3"))))) := by
    simp [resultNames, reportedCaches]
  refine ⟨found3, located3, ?_⟩
  simp only [List.map_append, List.flatten_cons, List.flatten_nil, List.append_nil, ofUops,
    names_of_core summed, ofTimes, names1d, names1i, names2, names3, fixed, List.append_assoc,
    List.perm_append_left_iff]
  exact List.perm_append_comm

theorem IsResults.names {entries : List (String × Entry)} (checked : a.config.Checked)
    (given : IsResults a entries) :
    (entries.map (·.1)).Perm resultNames ∨ (entries.map (·.1)).Perm (resultNames ++ memoryNames) := by
  obtain ⟨last, -, names⟩ := given.exists_names checked
  split at names
  · exact .inr names
  · rw [List.append_nil] at names
    exact .inl names

/-! ## Lengths of the results -/

/-- The results that are one value. -/
def singleNames : List String :=
  ["fs_to_cycles", "global.time_begin", "global.time_end", "global.time"]

def networkNames : List String :=
  ["network.shmem-1.bus.num-packets", "network.shmem-1.bus.time-used"]

/-- How many elements a result has, if it is a list. -/
def resultLength? (cores : Nat) (name : String) : Option Nat :=
  if name ∈ singleNames then none else if name ∈ networkNames then some 2 else some cores

/-- The results that count something for each core. -/
def countNames : List String :=
  uopNames ++ coreMetrics.map (·.1) ++ (reportedCaches.flatMap fun r => cacheNames r.label) ++
    memoryNames

theorem resultLength?_of_count {name : String} (counted : name ∈ countNames) (cores : Nat) :
    resultLength? cores name = some cores := by
  have apart : ∀ n ∈ countNames, n ∉ singleNames ∧ n ∉ networkNames := by decide +kernel
  obtain ⟨notSingle, notNetwork⟩ := apart name counted
  rw [resultLength?, if_neg notSingle, if_neg notNetwork]

/-- A sum of a metric of the cores is there for each of them, and its counter is reported. -/
theorem core_of_aggregate_eq_ok {metric : Metric} {counter : CoreCounter} {q : Quantity}
    (counted : metric.coreCounter? = some counter)
    (summed : aggregate a.config a.trace metric a.modes = .ok q) :
    a.trace.reports counter = true ∧ q.elements.length = a.config.cores := by
  have shaped := (exact_of_aggregate_eq_ok summed).1
  rw [Metric.shape_of_core counted] at shaped
  split at shaped
  next reported =>
    have length := Quantity.length_elements q
    rw [← Except.ok.inj shaped] at length
    exact ⟨reported, length⟩
  next => cases shaped

theorem PaddedSum.length_eq {metric : Metric} {values : List Int64}
    (padded : PaddedSum a metric values) : values.length = a.config.cores := by
  obtain ⟨q, what, -, extended⟩ := padded
  obtain ⟨room, rfl⟩ := Quantity.padded_eq_ok_iff_append.1 extended
  rw [List.length_append, List.length_replicate]
  omega

theorem IsUopTotals.lengths {uops : UopTotals} (totals : IsUopTotals a uops)
    (fits : a.trace.Fits a.config) {generic : Quantity} (left : uops.generic = .ok generic) :
    ∀ e ∈ uopEntries uops generic, e.2.length? = some a.config.cores := by
  obtain ⟨-, total, kinds⟩ := totals.exact fits
  simp only [UopTotals.kinds, uopKinds, List.forall₂_cons] at kinds
  obtain ⟨loads, stores, branches, fpAddSub, fpMulDiv, -⟩ := kinds
  have rest := totals.generic_isExact fits left
  simp only [uopEntries, List.forall_mem_cons, Entry.length?, Option.some.injEq]
  exact ⟨branches.elements.length_eq, fpAddSub.elements.length_eq, fpMulDiv.elements.length_eq,
    loads.elements.length_eq, stores.elements.length_eq, rest.elements.length_eq,
    total.elements.length_eq, List.forall_mem_nil _⟩

theorem IsCacheCounts.lengths {name : String} {counts : CacheCounts}
    (sums : IsCacheCounts a name counts) (label : String) :
    ∀ e ∈ counts.memoryEntries ++ counts.entries label, e.2.length? = some a.config.cores := by
  simp only [CacheCounts.memoryEntries, CacheCounts.entries, List.cons_append, List.nil_append,
    List.forall_mem_cons, Entry.length?, Option.some.injEq]
  exact ⟨sums.loadMisses.length_eq, sums.storeMisses.length_eq, sums.loadMisses.length_eq,
    sums.loads.length_eq, sums.storeMisses.length_eq, sums.stores.length_eq, List.forall_mem_nil _⟩

theorem length?_of_timeEntries (config : Config) (elapsed : Int64) :
    ∀ e ∈ timeEntries config elapsed, e.2.length? = resultLength? config.cores e.1 := by
  simp [timeEntries, Entry.length?, resultLength?, singleNames, networkNames]

theorem IsResults.lengths {entries : List (String × Entry)} (fits : a.trace.Fits a.config)
    (given : IsResults a entries) :
    ∀ e ∈ entries, e.2.length? = resultLength? a.config.cores e.1 := by
  obtain ⟨totals, rest, summed, timed, counted⟩ := given
  rename_i uops generic cores elapsed caches
  simp only [List.forall_mem_append]
  refine ⟨⟨⟨?_, ?_⟩, length?_of_timeEntries a.config elapsed⟩, ?_⟩
  · intro e member
    have known : e.1 ∈ countNames := by
      simp only [countNames, List.mem_append]
      exact .inl (.inl (.inl (List.mem_map_of_mem member)))
    rw [resultLength?_of_count known, totals.lengths fits rest e member]
  · intro e member
    obtain ⟨m, listed, sum, got, rfl⟩ := exists_mem_of_forall₂ summed.flip member
    have known : m.1 ∈ countNames := by
      simp only [countNames, List.mem_append]
      exact .inl (.inl (.inr (List.mem_map_of_mem listed)))
    have ofCores : ∀ m ∈ coreMetrics, (m.2.coreCounter?).isSome = true := by decide
    obtain ⟨counter, counted⟩ := Option.isSome_iff_exists.1 (ofCores m listed)
    rw [resultLength?_of_count known, Entry.length?, (core_of_aggregate_eq_ok counted got).2]
  · intro e member
    obtain ⟨part, partOf, held⟩ := List.mem_flatten.1 member
    obtain ⟨r, reported, found, counts, -, sums, rfl⟩ := exists_mem_of_forall₂ counted.flip partOf
    have listed : e ∈ counts.memoryEntries ++ counts.entries r.label := by
      rw [List.mem_append] at held ⊢
      refine held.imp_left fun member => ?_
      split at member
      · exact member
      · cases member
    have known : e.1 ∈ countNames := by
      simp only [countNames, List.mem_append]
      rcases List.mem_append.1 listed with ofMemory | ofCache
      · exact .inr (List.mem_map_of_mem ofMemory)
      · exact .inl (.inr (List.mem_flatMap.2 ⟨r, reported, List.mem_map_of_mem ofCache⟩))
    rw [resultLength?_of_count known, sums.lengths r.label e listed]

/-! ## Counters -/

theorem IsResults.counters {entries : List (String × Entry)} (given : IsResults a entries)
    (counter : CoreCounter) : a.trace.reports counter = true := by
  obtain ⟨totals, rest, summed, timed, counted⟩ := given
  have ofMetric {m : String × Metric} (listed : m ∈ coreMetrics) {counter : CoreCounter}
      (counted : m.2.coreCounter? = some counter) : a.trace.reports counter = true := by
    obtain ⟨_, -, sum, got, -⟩ := exists_mem_of_forall₂ summed listed
    exact (core_of_aggregate_eq_ok counted got).1
  cases counter with
  | instructions =>
    exact ofMetric (m := ("performance_model.instruction_count", .instructions)) (by decide) rfl
  | cycles =>
    exact ofMetric (m := ("performance_model.idle_elapsed_time", .idleElapsedTime)) (by decide) rfl
  | mispredictedBranches =>
    exact ofMetric (m := ("branch_predictor.num-incorrect", .mispredictedBranches)) (by decide) rfl
  | predictedBranches =>
    exact ofMetric (m := ("branch_predictor.num-correct", .correctBranches)) (by decide) rfl
  | branchUops => exact (core_of_aggregate_eq_ok rfl totals.branches).1
  | fpAddSubUops => exact (core_of_aggregate_eq_ok rfl totals.fpAddSub).1
  | fpMulDivUops => exact (core_of_aggregate_eq_ok rfl totals.fpMulDiv).1
  | uops => exact (core_of_aggregate_eq_ok rfl totals.total).1

/-! ## Reports -/

namespace Report

variable {report : Report}

/-- What every report is like. -/
structure HasLayout (a : Aggregator) (report : Report) : Prop where
  /-- The cores report all their counters. -/
  counters : ∀ counter, a.trace.reports counter = true
  /-- Each reported cache has an instance, and no more of them than there are cores. So at least one core
  shares an instance, and the report says how many do. -/
  caches : ∀ r ∈ reportedCaches, ∃ found, a.config.findCache r.name = .ok found ∧
    1 ≤ found.2.instances ∧ found.2.instances ≤ a.config.cores ∧ 1 ≤ a.config.sharedCores found.2 ∧
    report.config.get? s!"perf_model/{r.category}/shared_cores" =
      some (.text (toString (a.config.sharedCores found.2)))
  settingKeys : (report.config.entries.map (·.1)).Perm settingNames
  resultKeys : (report.results.entries.map (·.1)).Perm resultNames ∨
    (report.results.entries.map (·.1)).Perm (resultNames ++ memoryNames)
  /-- No entry takes the place of another: all that were given are there. -/
  kept : ∃ given listed, settings a.config = .ok given ∧ (Sniper.results a).outcome = .ok listed ∧
    report.config.entries.Perm given ∧ report.results.entries.Perm listed
  settingLengths : ∀ name value, report.config.get? name = some value → value.length? = none
  resultLengths : ∀ name value, report.results.get? name = some value →
    value.length? = resultLength? a.config.cores name

theorem exists_tables_of_build (built : (build a).outcome = .ok report) :
    ∃ given listed, settings a.config = .ok given ∧ (Sniper.results a).outcome = .ok listed ∧
      report = ⟨.ofList given, .ofList listed⟩ := by
  simp only [build, Logged.outcome_bind, Logged.outcome_ofExcept, Logged.outcome_note,
    Logged.outcome_pure, bind_eq_ok_iff, ofExcept_eq_ok_iff, Except.ok.injEq] at built
  obtain ⟨given, settled, listed, summed, -, -, rfl⟩ := built
  exact ⟨given, listed, settled, summed, rfl⟩

theorem sharedCores_mem_cacheSettings (config : Config) (cache : Cache) (category : String) :
    (s!"perf_model/{category}/shared_cores", .text (toString (config.sharedCores cache))) ∈
      cacheSettings config cache category := by
  have key : s!"perf_model/{category}/shared_cores" = s!"perf_model/{category}/" ++ "shared_cores" := by
    simp only [String.append_assoc]
    rfl
  rw [key]
  exact .tail _ (.tail _ (.tail _ (.tail _ (.head _))))

theorem mem_settings_of_cache {given : List (String × Entry)} (settled : settings config = .ok given)
    {r : ReportedCache} (reported : r ∈ reportedCaches) {found : Nat × Cache}
    (located : config.findCache r.name = .ok found) {e : String × Entry}
    (member : e ∈ cacheSettings config found.2 r.category) : e ∈ given := by
  obtain ⟨caches, each, rfl⟩ := settings_eq_ok_iff.1 settled
  obtain ⟨part, partOf, found', located', rfl⟩ := exists_mem_of_forall₂ each reported
  cases located.symm.trans located'
  exact List.mem_append_right _ (List.mem_flatten.2 ⟨_, partOf, member⟩)

theorem hasLayout_of_build (checked : a.config.Checked) (fits : a.trace.Fits a.config)
    (built : (build a).outcome = .ok report) : HasLayout a report := by
  obtain ⟨given, listed, settled, summed, same⟩ := exists_tables_of_build built
  have isResults := isResults_of_eq_ok summed
  have names := isResults.names checked
  have settingsKept : (Table.ofList given).entries.Perm given :=
    Table.perm_ofList (names_of_settings settled ▸ nodup_settingNames)
  have resultsKept : (Table.ofList listed).entries.Perm listed := by
    refine Table.perm_ofList ?_
    rcases names with own | all
    · exact own.nodup_iff.2 nodup_resultNames
    · exact all.nodup_iff.2 nodup_allNames
  subst same
  constructor
  case counters => exact isResults.counters
  case caches =>
    intro r reported
    obtain ⟨found, located, room, -, -⟩ := cache_counts fits built reported
    have some := checked.present _ (List.mem_of_getElem? (Config.findCache_eq_ok located).1)
    refine ⟨found, located, some, room, Config.sharedCores_pos some room, ?_⟩
    rw [Table.get?_eq_some_iff, settingsKept.mem_iff]
    exact mem_settings_of_cache settled reported located (sharedCores_mem_cacheSettings ..)
  case settingKeys =>
    rw [← names_of_settings settled]
    exact settingsKept.map _
  case resultKeys => exact names.imp (resultsKept.map _).trans (resultsKept.map _).trans
  case kept => exact ⟨given, listed, settled, summed, settingsKept, resultsKept⟩
  case settingLengths =>
    intro name value found
    exact length?_of_settings settled _ (settingsKept.mem_iff.1 (Table.get?_eq_some_iff.1 found))
  case resultLengths =>
    intro name value found
    exact isResults.lengths fits _ (resultsKept.mem_iff.1 (Table.get?_eq_some_iff.1 found))

end Report

/-- A report stops at an unknown cache exactly if one of four caches is not configured, and names the first
of them, whatever the trace and the modes. All reports have the same layout. -/
theorem report_layout {raw : Config.Raw} {raws : List RawSnapshot}
    (configured : Config.ofRaw raw = .ok a.config)
    (loaded : (Trace.ofRaw a.config raws).outcome = .ok a.trace) :
    (∀ name, (Report.build a).outcome = fail (.unknownCache name) ↔
      ["l1d", "l1i", "l2", "l3"].find? (fun n => a.config.caches.all (·.id.name ≠ n)) = some name) ∧
    ∀ report, (Report.build a).outcome = .ok report → Report.HasLayout a report := by
  have checked := Config.checked_of_ofRaw configured
  have fits := Trace.fits_of_ofRaw loaded
  exact ⟨fun _ => Report.build_eq_unknownCache_iff fits,
    fun _ built => Report.hasLayout_of_build checked fits built⟩

end Sniper

namespace Sample

theorem exists_sparseTrace : ∃ trace, (Trace.ofRaw sparse [raw 0 0 1 5]).outcome = .ok trace :=
  ⟨_, Trace.ofRaw_of_checks (by decide +kernel) (by decide +kernel)⟩

end Sample

/-- The sample has a report, and without two of its caches the first of them is missed. -/
theorem Sniper.report_layout_sample :
    (∃ report, (Report.build Sample.work).outcome = .ok report ∧ Report.HasLayout Sample.work report ∧
      report.results.get? "L1-I.loads" = some (.ints [37, 27])) ∧
    ∃ trace, (Report.build ⟨Sample.sparse, trace, .all⟩).outcome = fail (.unknownCache "l1i") := by
  obtain ⟨report, built⟩ := Sample.exists_report
  obtain ⟨-, laidOut⟩ := report_layout (a := Sample.work) Sample.ofRaw_rawConfig Sample.work_loaded
  obtain ⟨trace, loaded⟩ := Sample.exists_sparseTrace
  obtain ⟨unknown, -⟩ := report_layout (a := ⟨Sample.sparse, trace, .all⟩) Sample.ofRaw_sparse loaded
  exact ⟨⟨report, built, laidOut report built, Sample.get?_of_mem_workAccesses built (by decide)⟩, trace,
    (unknown "l1i").2 (by rfl)⟩

end IntervalStats
