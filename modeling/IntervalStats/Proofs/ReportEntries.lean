import Mathlib.Data.List.Nodup
import IntervalStats.SniperReport
import IntervalStats.Proofs.AggregatorCounts
import IntervalStats.Proofs.TableEntries

/-!
# Entries of a report

A report is built from lists of entries that are put into tables, where the last entry under a name
wins. All results but those of memory have names of their own, so each of them can be read back
(`Sniper.Report.exists_results_of_build`). The rest of the module says, section by section, which sums
the entries of a built report are.
-/

namespace IntervalStats

namespace Sniper

variable {a : Aggregator}

/-! ## Sections of the results -/

/-- The values are the sum of a metric, with zeros for the cores beyond its instances. -/
def PaddedSum (a : Aggregator) (metric : Metric) (values : List Int64) : Prop :=
  ∃ q what, aggregate a.config a.trace metric a.modes = .ok q ∧
    q.padded a.config.cores what = .ok values

/-- The sums of micro-ops that make up the totals of a report. -/
structure IsUopTotals (a : Aggregator) (uops : UopTotals) : Prop where
  total : aggregate a.config a.trace (.uops .total) a.modes = .ok uops.total
  loads : ∃ values, uops.loads = .array values ∧ PaddedSum a (.uops .load) values
  stores : ∃ values, uops.stores = .array values ∧ PaddedSum a (.uops .store) values
  branches : aggregate a.config a.trace (.uops .branch) a.modes = .ok uops.branches
  fpAddSub : aggregate a.config a.trace (.uops .fpAddSub) a.modes = .ok uops.fpAddSub
  fpMulDiv : aggregate a.config a.trace (.uops .fpMulDiv) a.modes = .ok uops.fpMulDiv

theorem isUopTotals_of_eq_ok {uops : UopTotals} (summed : (uopTotals a).outcome = .ok uops) :
    IsUopTotals a uops := by
  simp only [uopTotals, Logged.outcome_bind, Aggregator.outcome_sum, Logged.outcome_ofExcept,
    Logged.outcome_pure, bind_eq_ok_iff, Except.ok.injEq] at summed
  obtain ⟨total, gotTotal, _, ⟨loads, gotLoads, values, padded, rfl⟩, _,
    ⟨stores, gotStores, values', padded', rfl⟩, branches, gotBranches, fpAddSub, gotAddSub, fpMulDiv,
    gotMulDiv, rfl⟩ := summed
  exact ⟨gotTotal, ⟨values, rfl, loads, _, gotLoads, padded⟩, ⟨values', rfl, stores, _, gotStores, padded'⟩,
    gotBranches, gotAddSub, gotMulDiv⟩

/-- The counts are the padded sums of the cache of a name. -/
structure IsCacheCounts (a : Aggregator) (name : String) (counts : CacheCounts) : Prop where
  loadMisses : PaddedSum a (.cache name .loadMisses) counts.loadMisses
  loads : PaddedSum a (.cache name .loads) counts.loads
  storeMisses : PaddedSum a (.cache name .storeMisses) counts.storeMisses
  stores : PaddedSum a (.cache name .stores) counts.stores

theorem isCacheCounts_of_eq_ok {name label : String} {counts : CacheCounts}
    (summed : (cacheCounts a name label).outcome = .ok counts) : IsCacheCounts a name counts := by
  simp only [cacheCounts, Logged.outcome_bind, Aggregator.outcome_sum, Logged.outcome_ofExcept,
    Logged.outcome_pure, bind_eq_ok_iff, Except.ok.injEq] at summed
  obtain ⟨_, ⟨q₁, sum₁, padded₁⟩, _, ⟨q₂, sum₂, padded₂⟩, _, ⟨q₃, sum₃, padded₃⟩, _,
    ⟨q₄, sum₄, padded₄⟩, rfl⟩ := summed
  exact ⟨⟨q₁, _, sum₁, padded₁⟩, ⟨q₂, _, sum₂, padded₂⟩, ⟨q₃, _, sum₃, padded₃⟩,
    ⟨q₄, _, sum₄, padded₄⟩⟩

/-- The entries of a reported cache are its counts, after those of memory on the deepest level. -/
def IsCacheSection (a : Aggregator) (r : ReportedCache) (entries : List (String × Entry)) : Prop :=
  ∃ found counts, a.config.findCache r.name = .ok found ∧ IsCacheCounts a r.name counts ∧
    entries = (if a.config.isLastLevel found.2 then counts.memoryEntries else []) ++ counts.entries r.label

theorem isCacheSection_of_eq_ok {r : ReportedCache} {position : Nat} {cache : Cache}
    {entries : List (String × Entry)} (found : a.config.findCache r.name = .ok (position, cache))
    (given : (cacheResults a cache r.label).outcome = .ok entries) : IsCacheSection a r entries := by
  rw [cacheResults, Logged.outcome_bind, bind_eq_ok_iff] at given
  obtain ⟨counts, summed, listed⟩ := given
  rw [(Config.findCache_eq_ok found).2] at summed
  refine ⟨(position, cache), counts, found, isCacheCounts_of_eq_ok summed, ?_⟩
  split at listed
  next last =>
    cases listed
    rw [if_pos last]
  next other =>
    cases listed
    rw [if_neg other, List.nil_append]

/-- An entry of a metric of the cores. -/
def IsCoreEntry (a : Aggregator) (m : String × Metric) (entry : String × Entry) : Prop :=
  ∃ sum, aggregate a.config a.trace m.2 a.modes = .ok sum ∧ entry = (m.1, .ints sum.elements)

/-- The sums that a list of results is made of. -/
inductive IsResults (a : Aggregator) : List (String × Entry) → Prop where
  | intro {uops : UopTotals} {generic : Quantity} {cores : List (String × Entry)} {elapsed : Int64}
      {caches : List (List (String × Entry))} (totals : IsUopTotals a uops)
      (rest : uops.generic = .ok generic) (summed : List.Forall₂ (IsCoreEntry a) coreMetrics cores)
      (timed : (a.total .elapsedTime).outcome = .ok elapsed)
      (counted : List.Forall₂ (IsCacheSection a) reportedCaches caches) :
      IsResults a (uopEntries uops generic ++ cores ++ timeEntries a.config elapsed ++ caches.flatten)

theorem isResults_of_eq_ok {entries : List (String × Entry)}
    (given : (results a).outcome = .ok entries) : IsResults a entries := by
  simp only [results, uopResults, coreResults, timeResults, Logged.outcome_bind, Logged.outcome_mapM,
    Logged.outcome_ofExcept, Logged.outcome_pure, Aggregator.outcome_sum, bind_eq_ok_iff, mapM_eq_ok_iff,
    ofExcept_eq_ok_iff, Except.ok.injEq] at given
  obtain ⟨_, ⟨uops, totals, generic, rest, rfl⟩, cores, summed, _, ⟨elapsed, timed, rfl⟩, caches, counted,
    rfl⟩ := given
  refine .intro (isUopTotals_of_eq_ok totals) rest (summed.imp ?_) timed (counted.imp ?_)
  · rintro m entry ⟨sum, got, rfl⟩
    exact ⟨sum, got, rfl⟩
  · rintro r entries ⟨found, configured, given⟩
    exact isCacheSection_of_eq_ok configured given

/-! ## Names of the results -/

def uopNames : List String :=
  ["interval_timer.uop_branch", "interval_timer.uop_fp_addsub", "interval_timer.uop_fp_muldiv",
    "interval_timer.uop_load", "interval_timer.uop_store", "interval_timer.uop_generic",
    "interval_timer.uops_total"]

def timeNames : List String :=
  ["fs_to_cycles", "fs_to_cycles_cores", "global.time_begin", "global.time_end", "global.time",
    "performance_model.elapsed_time", "network.shmem-1.bus.num-packets",
    "network.shmem-1.bus.time-used"]

def cacheNames (label : String) : List String :=
  [s!"{label}.load-misses", s!"{label}.loads", s!"{label}.store-misses", s!"{label}.stores"]

/-- The results that only the deepest level of the caches gives. -/
def memoryNames : List String :=
  ["dram.reads", "dram.writes"]

/-- The results of every report. -/
def resultNames : List String :=
  uopNames ++ coreMetrics.map (·.1) ++ timeNames ++ reportedCaches.flatMap fun r => cacheNames r.label

theorem nodup_resultNames : resultNames.Nodup := by
  decide +kernel

theorem not_mem_memoryNames {name : String} (known : name ∈ resultNames) : name ∉ memoryNames := by
  revert name
  decide +kernel

/-- The names of a list of results, without those of memory. -/
def ownNames (entries : List (String × Entry)) : List String :=
  (entries.map (·.1)).filter (· ∉ memoryNames)

theorem ownNames_append (left right : List (String × Entry)) :
    ownNames (left ++ right) = ownNames left ++ ownNames right := by
  simp only [ownNames, List.map_append, List.filter_append]

theorem ownNames_eq_map {entries : List (String × Entry)}
    (known : ∀ name ∈ entries.map (·.1), name ∈ resultNames) :
    ownNames entries = entries.map (·.1) := by
  apply List.filter_eq_self.2
  intro name member
  exact decide_eq_true (not_mem_memoryNames (known name member))

theorem names_of_core {metrics : List (String × Metric)} {entries : List (String × Entry)}
    (summed : List.Forall₂ (IsCoreEntry a) metrics entries) :
    entries.map (·.1) = metrics.map (·.1) := by
  induction summed with
  | nil => rfl
  | cons first _ ih =>
    obtain ⟨sum, -, rfl⟩ := first
    rw [List.map_cons, List.map_cons, ih]

theorem ownNames_of_cache {r : ReportedCache} {entries : List (String × Entry)}
    (reported : r ∈ reportedCaches) (counted : IsCacheSection a r entries) :
    ownNames entries = cacheNames r.label := by
  obtain ⟨found, counts, -, -, rfl⟩ := counted
  have own : ownNames (counts.entries r.label) = cacheNames r.label := by
    apply ownNames_eq_map
    intro name member
    exact List.mem_append_right _ (List.mem_flatMap.2 ⟨r, reported, member⟩)
  rw [ownNames_append, own]
  split <;> rfl

theorem ownNames_of_caches {listed : List ReportedCache} {caches : List (List (String × Entry))}
    (reported : ∀ r ∈ listed, r ∈ reportedCaches)
    (counted : List.Forall₂ (IsCacheSection a) listed caches) :
    ownNames caches.flatten = listed.flatMap fun r => cacheNames r.label := by
  induction counted with
  | nil => rfl
  | cons first _ ih =>
    rw [List.forall_mem_cons] at reported
    rw [List.flatten_cons, ownNames_append, List.flatMap_cons, ownNames_of_cache reported.1 first,
      ih reported.2]

/-- Every list of results has the same names, each of them once. -/
theorem IsResults.ownNames_eq {entries : List (String × Entry)} (given : IsResults a entries) :
    ownNames entries = resultNames := by
  obtain ⟨totals, rest, summed, timed, counted⟩ := given
  rename_i uops generic cores elapsed caches
  have core := names_of_core summed
  have ofUops : ownNames (uopEntries uops generic) = uopNames := by
    apply ownNames_eq_map
    intro name member
    simp only [resultNames, List.mem_append]
    exact Or.inl (Or.inl (Or.inl member))
  have ofCores : ownNames cores = coreMetrics.map (·.1) := by
    rw [ownNames_eq_map, core]
    intro name member
    simp only [resultNames, List.mem_append]
    exact Or.inl (Or.inl (Or.inr (core ▸ member)))
  have ofTimes : ownNames (timeEntries a.config elapsed) = timeNames := by
    apply ownNames_eq_map
    intro name member
    simp only [resultNames, List.mem_append]
    exact Or.inl (Or.inr member)
  simp only [ownNames_append, ofUops, ofCores, ofTimes, ownNames_of_caches (fun _ => id) counted,
    resultNames]

theorem IsResults.get?_of_mem {entries : List (String × Entry)} (given : IsResults a entries)
    {name : String} {value : Entry} (member : (name, value) ∈ entries) (known : name ∈ resultNames) :
    (Table.ofList entries).get? name = some value := by
  apply Table.get?_ofList_of_mem member
  intro v other
  -- Away from memory no two entries share a name, so an entry is known by its name.
  have distinct : ((entries.filter fun e => e.1 ∉ memoryNames).map (·.1)).Nodup := by
    have names := given.ownNames_eq
    rw [ownNames, List.filter_map] at names
    exact names ▸ nodup_resultNames
  have own {v : Entry} (listed : (name, v) ∈ entries) :
      (name, v) ∈ entries.filter fun e => e.1 ∉ memoryNames :=
    List.mem_filter.2 ⟨listed, decide_eq_true (not_mem_memoryNames known)⟩
  exact congrArg Prod.snd (List.inj_on_of_nodup_map distinct (own other) (own member) rfl)

/-! ## Reading a report -/

namespace Report

variable {report : Report}

/-- A report is built if each part of it is found. -/
theorem exists_build (configured : ∃ entries, settings a.config = .ok entries)
    (uops : ∃ entries, (uopResults a).outcome = .ok entries)
    (cores : ∀ m ∈ coreMetrics, ∃ sum, aggregate a.config a.trace m.2 a.modes = .ok sum)
    (timed : ∃ time, (a.total .elapsedTime).outcome = .ok time)
    (caches : ∀ r ∈ reportedCaches, ∃ entries,
      (Outcome.ofExcept (a.config.findCache r.name) >>= fun found =>
        (cacheResults a found.2 r.label).outcome) = .ok entries) :
    ∃ report, (build a).outcome = .ok report := by
  obtain ⟨given, configured⟩ := configured
  obtain ⟨uops, summed⟩ := uops
  obtain ⟨cores, counted⟩ : ∃ entries, (coreResults a).outcome = .ok entries := by
    rw [coreResults, Logged.outcome_mapM]
    refine exists_mapM_eq_ok fun m listed => ?_
    obtain ⟨sum, got⟩ := cores m listed
    exact ⟨_, by rw [Logged.outcome_bind, Aggregator.outcome_sum, got]; rfl⟩
  obtain ⟨times, timed⟩ : ∃ entries, (timeResults a).outcome = .ok entries := by
    obtain ⟨time, timed⟩ := timed
    exact ⟨_, by rw [timeResults, Logged.outcome_bind, timed]; rfl⟩
  obtain ⟨parts, listed⟩ := exists_mapM_eq_ok caches
  have collected : (Sniper.results a).outcome = .ok (uops ++ cores ++ times ++ parts.flatten) := by
    simp only [Sniper.results, Logged.outcome_bind, Logged.outcome_mapM, Logged.outcome_ofExcept, summed,
      counted, timed, ok_bind, listed]
    rfl
  refine ⟨⟨.ofList given, .ofList (uops ++ cores ++ times ++ parts.flatten)⟩, ?_⟩
  simp only [build, configured, Logged.outcome_bind, Logged.outcome_ofExcept, collected]
  rfl

/-- A built report gives back each of its results by name. -/
theorem exists_results_of_build (built : (build a).outcome = .ok report) :
    ∃ entries, IsResults a entries ∧
      ∀ e ∈ entries, e.1 ∈ resultNames → report.results.get? e.1 = some e.2 := by
  simp only [build, Logged.outcome_bind, Logged.outcome_ofExcept, Logged.outcome_note,
    Logged.outcome_pure, bind_eq_ok_iff, Except.ok.injEq] at built
  obtain ⟨_, -, entries, given, -, -, rfl⟩ := built
  have isResults := isResults_of_eq_ok given
  exact ⟨entries, isResults, fun e member known => isResults.get?_of_mem member known⟩

theorem exists_uops_of_build (built : (build a).outcome = .ok report) :
    ∃ uops generic, IsUopTotals a uops ∧ uops.generic = .ok generic ∧
      ∀ e ∈ uopEntries uops generic, report.results.get? e.1 = some e.2 := by
  obtain ⟨_, ⟨totals, rest, summed, timed, counted⟩, found⟩ := exists_results_of_build built
  refine ⟨_, _, totals, rest, fun e member => ?_⟩
  apply found
  · simp [member]
  · simp only [resultNames, List.mem_append]
    exact Or.inl (Or.inl (Or.inl (List.mem_map_of_mem member)))

theorem exists_sum_of_build (built : (build a).outcome = .ok report) {m : String × Metric}
    (listed : m ∈ coreMetrics) :
    ∃ sum, aggregate a.config a.trace m.2 a.modes = .ok sum ∧
      report.results.get? m.1 = some (.ints sum.elements) := by
  obtain ⟨_, ⟨totals, rest, summed, timed, counted⟩, found⟩ := exists_results_of_build built
  obtain ⟨_, member, sum, got, rfl⟩ := exists_mem_of_forall₂ summed listed
  refine ⟨sum, got, found (m.1, .ints sum.elements) ?_ ?_⟩
  · simp [member]
  · simp only [resultNames, List.mem_append]
    exact Or.inl (Or.inl (Or.inr (List.mem_map_of_mem listed)))

theorem exists_time_of_build (built : (build a).outcome = .ok report) :
    ∃ elapsed, (a.total .elapsedTime).outcome = .ok elapsed ∧
      ∀ e ∈ timeEntries a.config elapsed, report.results.get? e.1 = some e.2 := by
  obtain ⟨_, ⟨totals, rest, summed, timed, counted⟩, found⟩ := exists_results_of_build built
  refine ⟨_, timed, fun e member => ?_⟩
  apply found
  · simp [member]
  · simp only [resultNames, List.mem_append]
    exact Or.inl (Or.inr (List.mem_map_of_mem member))

theorem exists_counts_of_build (built : (build a).outcome = .ok report) {r : ReportedCache}
    (reported : r ∈ reportedCaches) :
    ∃ found counts, a.config.findCache r.name = .ok found ∧ IsCacheCounts a r.name counts ∧
      ∀ e ∈ counts.entries r.label, report.results.get? e.1 = some e.2 := by
  obtain ⟨_, ⟨totals, rest, summed, timed, counted⟩, found⟩ := exists_results_of_build built
  obtain ⟨_, partOf, cache, counts, configured, isCounts, rfl⟩ :=
    exists_mem_of_forall₂ counted reported
  refine ⟨cache, counts, configured, isCounts, fun e member => ?_⟩
  apply found
  · exact List.mem_append_right _ (List.mem_flatten.2 ⟨_, partOf, List.mem_append_right _ member⟩)
  · exact List.mem_append_right _ (List.mem_flatMap.2 ⟨r, reported, List.mem_map_of_mem member⟩)

end Report

end Sniper

end IntervalStats
