import IntervalStats.Proofs.ReportCounts

/-!
# Conservation

What the numbers of one report must agree on, whatever the trace. On every core the micro-ops of all
kinds add up to their total, and the load and store micro-ops are the accesses to the first-level data
cache. No cache misses more often than it is accessed, and cores beyond the instances of a cache have
no accesses. All times of the whole run are one time.
-/

namespace IntervalStats

namespace Sniper

variable {a : Aggregator} {report : Report}

namespace Report

/-- On every core the micro-ops of all kinds, and those of no kind, add up to their total. -/
def UopsAddUp (report : Report) (cores : Nat) : Prop :=
  ∃ total branches fpAddSub fpMulDiv loads stores generic : Nat → Int,
    report.Counts "interval_timer.uops_total" cores total ∧
    report.Counts "interval_timer.uop_branch" cores branches ∧
    report.Counts "interval_timer.uop_fp_addsub" cores fpAddSub ∧
    report.Counts "interval_timer.uop_fp_muldiv" cores fpMulDiv ∧
    report.Counts "interval_timer.uop_load" cores loads ∧
    report.Counts "interval_timer.uop_store" cores stores ∧
    report.Counts "interval_timer.uop_generic" cores generic ∧
    ∀ c < cores, total c = branches c + fpAddSub c + fpMulDiv c + loads c + stores c + generic c

theorem uopsAddUp_of_build (fits : a.trace.Fits a.config) (built : (build a).outcome = .ok report) :
    report.UopsAddUp a.config.cores := by
  obtain ⟨kinds, generic⟩ := uop_counts fits built
  simp only [uopMetrics, List.forall_mem_cons] at kinds
  obtain ⟨branches, fpAddSub, fpMulDiv, loads, stores, total, -⟩ := kinds
  refine ⟨_, _, _, _, _, _, _, total, branches, fpAddSub, fpMulDiv, loads, stores, generic, fun c _ => ?_⟩
  simp only [uopKinds, List.map_cons, List.map_nil, List.sum_cons, List.sum_nil]
  omega

/-- Loads and stores are the accesses to the first-level data cache. -/
theorem uops_are_accesses (fits : a.trace.Fits a.config) (built : (build a).outcome = .ok report) :
    report.results.get? "interval_timer.uop_load" = report.results.get? "L1-D.loads" ∧
      report.results.get? "interval_timer.uop_store" = report.results.get? "L1-D.stores" := by
  obtain ⟨kinds, -⟩ := uop_counts fits built
  obtain ⟨_, -, -, -, accesses⟩ := cache_counts fits built (List.mem_cons_self ..)
  simp only [uopMetrics, cacheMetrics, List.forall_mem_cons] at kinds accesses
  obtain ⟨-, -, -, loadUops, storeUops, -⟩ := kinds
  obtain ⟨-, loads, -, stores, -⟩ := accesses
  exact ⟨loadUops.get?_eq loads, storeUops.get?_eq stores⟩

/-- The results under a label are accesses to a cache with so many instances: no core misses more often
than it accesses the cache, and cores beyond the instances do neither. -/
def AccessesBounded (report : Report) (cores : Nat) (label : String) (instances : Nat) : Prop :=
  ∃ loadMisses loads storeMisses stores : Nat → Int,
    report.Counts s!"{label}.load-misses" cores loadMisses ∧
    report.Counts s!"{label}.loads" cores loads ∧
    report.Counts s!"{label}.store-misses" cores storeMisses ∧
    report.Counts s!"{label}.stores" cores stores ∧
    ∀ c < cores,
      0 ≤ loadMisses c ∧ loadMisses c ≤ loads c ∧ 0 ≤ storeMisses c ∧ storeMisses c ≤ stores c ∧
      (instances ≤ c → loadMisses c = 0 ∧ loads c = 0 ∧ storeMisses c = 0 ∧ stores c = 0)

theorem accessesBounded_of_build (fits : a.trace.Fits a.config)
    (built : (build a).outcome = .ok report) {r : ReportedCache} (reported : r ∈ reportedCaches) :
    ∃ cache ∈ a.config.caches, cache.id.name = r.name ∧
      report.AccessesBounded a.config.cores r.label cache.instances := by
  obtain ⟨found, located, -, rising, accesses⟩ := cache_counts fits built reported
  obtain ⟨present, named⟩ := Config.findCache_eq_ok located
  simp only [cacheMetrics, List.forall_mem_cons] at accesses
  obtain ⟨loadMisses, loads, storeMisses, stores, -⟩ := accesses
  refine ⟨found.2, List.mem_of_getElem? present, named, _, _, _, _, loadMisses, loads, storeMisses, stores,
    fun c _ => ?_⟩
  have nonneg (stat : CacheStat) : 0 ≤ a.perCore (.cache r.name stat) c :=
    (rising stat).perCore_nonneg c
  have missesLeLoads : a.perCore (.cache r.name .loadMisses) c ≤ a.perCore (.cache r.name .loads) c := by
    have hits := nonneg .loadHits
    rw [Aggregator.perCore_loads located]
    omega
  have missesLeStores :
      a.perCore (.cache r.name .storeMisses) c ≤ a.perCore (.cache r.name .stores) c := by
    have hits := nonneg .storeHits
    rw [Aggregator.perCore_stores located]
    omega
  refine ⟨nonneg _, missesLeLoads, nonneg _, missesLeStores, fun beyond => ?_⟩
  have none (stat : CacheStat) : a.perCore (.cache r.name stat) c = 0 :=
    Aggregator.perCore_of_le (Metric.instances_cache located stat ▸ beyond)
  exact ⟨none _, none _, none _, none _⟩

/-- The time of the whole run, where it ends, and the time of each core are one number. -/
def TimesAgree (report : Report) (cores : Nat) : Prop :=
  ∃ time, report.results.get? "global.time" = some (.int time) ∧
    report.results.get? "global.time_end" = some (.int time) ∧
    report.results.get? "performance_model.elapsed_time" = some (.ints (List.replicate cores time))

theorem timesAgree_of_build (built : (build a).outcome = .ok report) :
    report.TimesAgree a.config.cores := by
  obtain ⟨time, -, found⟩ := exists_time_of_build built
  simp only [timeEntries, List.forall_mem_cons] at found
  obtain ⟨-, -, -, atEnd, whole, each, -⟩ := found
  exact ⟨time, whole, atEnd, each⟩

end Report

/-- The numbers of every report of a loaded trace are conserved. -/
theorem report_conserves {raws : List RawSnapshot}
    (loaded : (Trace.ofRaw a.config raws).outcome = .ok a.trace)
    (built : (Report.build a).outcome = .ok report) :
    report.UopsAddUp a.config.cores ∧
    report.results.get? "interval_timer.uop_load" = report.results.get? "L1-D.loads" ∧
    report.results.get? "interval_timer.uop_store" = report.results.get? "L1-D.stores" ∧
    (∀ name label, (name, label) ∈ [("l1d", "L1-D"), ("l1i", "L1-I"), ("l2", "L2"), ("l3", "L3")] →
      ∃ cache ∈ a.config.caches, cache.id.name = name ∧
        report.AccessesBounded a.config.cores label cache.instances) ∧
    report.TimesAgree a.config.cores := by
  have fits := Trace.fits_of_ofRaw loaded
  obtain ⟨loads, stores⟩ := Report.uops_are_accesses fits built
  refine ⟨Report.uopsAddUp_of_build fits built, loads, stores, ?_, Report.timesAgree_of_build built⟩
  intro name label listed
  obtain ⟨r, reported, rfl, rfl⟩ := Report.exists_reportedCache listed
  exact Report.accessesBounded_of_build fits built reported

/-- The second core of the sample has no counters in the data cache that it shares, and 59 of its 80
micro-ops are of no kind. -/
theorem report_conserves_sample :
    ∃ report, (Report.build Sample.work).outcome = .ok report ∧ report.UopsAddUp 2 ∧
      report.results.get? "interval_timer.uops_total" = some (.ints [120, 80]) ∧
      report.results.get? "interval_timer.uop_generic" = some (.ints [50, 59]) ∧
      report.results.get? "interval_timer.uop_load" = some (.ints [37, 0]) ∧
      report.results.get? "L1-D.loads" = some (.ints [37, 0]) ∧
      report.results.get? "interval_timer.uop_store" = some (.ints [15, 0]) ∧
      report.results.get? "L1-D.stores" = some (.ints [15, 0]) ∧
      report.AccessesBounded 2 "L1-D" 1 ∧ report.AccessesBounded 2 "L1-I" 2 ∧
      report.AccessesBounded 2 "L2" 1 ∧ report.AccessesBounded 2 "L3" 1 ∧ report.TimesAgree 2 := by
  obtain ⟨report, built⟩ := Sample.exists_report
  have fits : Sample.work.trace.Fits Sample.config := Trace.fits_of_ofRaw Sample.work_loaded
  obtain ⟨uops, loads, stores, caches, times⟩ :=
    report_conserves (a := Sample.work) Sample.work_loaded built
  obtain ⟨kinds, generic⟩ := Report.uop_counts fits built
  have total := kinds ("interval_timer.uops_total", .uops .total) (by simp [Report.uopMetrics])
  have gotLoads := Sample.get?_of_mem_workAccesses built (show ("L1-D.loads", [37, 0]) ∈ _ by decide)
  have gotStores := Sample.get?_of_mem_workAccesses built (show ("L1-D.stores", [15, 0]) ∈ _ by decide)
  have bounded {name label : String} (instances : Nat)
      (listed : (name, label) ∈ [("l1d", "L1-D"), ("l1i", "L1-I"), ("l2", "L2"), ("l3", "L3")])
      (each : ∀ cache ∈ Sample.config.caches, cache.id.name = name → cache.instances = instances) :
      report.AccessesBounded 2 label instances := by
    obtain ⟨cache, member, named, bounded⟩ := caches name label listed
    exact each cache member named ▸ bounded
  exact ⟨report, built, uops, total.get?_eq_ints (by decide +kernel),
    generic.get?_eq_ints (by decide +kernel), loads.trans gotLoads, gotLoads, stores.trans gotStores,
    gotStores, bounded 1 (.head _) (by decide), bounded 2 (.tail _ (.head _)) (by decide),
    bounded 1 (.tail _ (.tail _ (.head _))) (by decide),
    bounded 1 (.tail _ (.tail _ (.tail _ (.head _)))) (by decide), times⟩

end Sniper

end IntervalStats
