import IntervalStats.Proofs.IdleCycles
import IntervalStats.Proofs.QuantityArithmetic
import IntervalStats.Proofs.ReportEntries

/-!
# Counts of a report

A result that counts has one number for each core: what its metric counts for the instance of that
number, and zero for a core beyond the instances. `Report.uop_counts`, `Report.core_counts` and
`Report.cache_counts` say this of the results of a built report, in exact integers. Where a report can be
built over one interval is said in `Report.exists_build_of_interval`, without a look into the times, which
are quotients of floats.
-/

namespace IntervalStats

namespace Sniper

variable {a : Aggregator} {report : Report}

theorem PaddedSum.exactWords {metric : Metric} {values : List Int64}
    (padded : PaddedSum a metric values) (fits : a.trace.Fits a.config)
    (counted : metric.gauges ≠ []) :
    metric.instances a.config ≤ a.config.cores ∧ a.Rising metric ∧
      ExactWords values a.config.cores (a.perCore metric) := by
  obtain ⟨q, what, summed, extended⟩ := padded
  obtain ⟨rising, exact⟩ := counts_of_aggregate_eq_ok fits counted summed
  obtain ⟨room, words⟩ := exact.padded_eq_ok_iff.1 extended
  exact ⟨room, rising, words⟩

/-- The sum of a metric of the cores has a number for each core as it is. -/
theorem isExact_of_aggregate_eq_ok (fits : a.trace.Fits a.config) {metric : Metric}
    {counter : CoreCounter} (measured : metric.gauges = [.core counter]) {q : Quantity}
    (summed : aggregate a.config a.trace metric a.modes = .ok q) :
    a.Rising metric ∧ q.IsExact a.config.cores (a.perCore metric) := by
  have perCores : metric.instances a.config = a.config.cores := by
    simp only [Metric.instances, measured]
    rfl
  obtain ⟨rising, exact⟩ := counts_of_aggregate_eq_ok fits (by simp [measured]) summed
  rw [perCores] at exact
  refine ⟨rising, exact.congr fun k inside => ?_⟩
  rw [Aggregator.perCore_of_lt (perCores ▸ inside)]

/-- The kinds of micro-ops that are told apart. -/
def uopKinds : List UopKind := [.load, .store, .branch, .fpAddSub, .fpMulDiv]

theorem IsUopTotals.exact {uops : UopTotals} (totals : IsUopTotals a uops)
    (fits : a.trace.Fits a.config) :
    (∀ kind ∈ uopKinds, a.Rising (.uops kind)) ∧
      uops.total.IsExact a.config.cores (a.perCore (.uops .total)) ∧
      List.Forall₂ (fun q kind => q.IsExact a.config.cores (a.perCore (.uops kind))) uops.kinds
        uopKinds := by
  obtain ⟨-, total⟩ := isExact_of_aggregate_eq_ok fits rfl totals.total
  obtain ⟨loads, ofLoads, paddedLoads⟩ := totals.loads
  obtain ⟨-, risingLoads, loadWords⟩ := paddedLoads.exactWords fits (List.cons_ne_nil _ _)
  obtain ⟨stores, ofStores, paddedStores⟩ := totals.stores
  obtain ⟨-, risingStores, storeWords⟩ := paddedStores.exactWords fits (List.cons_ne_nil _ _)
  obtain ⟨risingBranches, branches⟩ := isExact_of_aggregate_eq_ok fits rfl totals.branches
  obtain ⟨risingAddSub, fpAddSub⟩ := isExact_of_aggregate_eq_ok fits rfl totals.fpAddSub
  obtain ⟨risingMulDiv, fpMulDiv⟩ := isExact_of_aggregate_eq_ok fits rfl totals.fpMulDiv
  refine ⟨?_, total, .cons ⟨_, ofLoads, loadWords⟩ (.cons ⟨_, ofStores, storeWords⟩
    (.cons branches (.cons fpAddSub (.cons fpMulDiv .nil))))⟩
  simp only [uopKinds, List.forall_mem_cons]
  exact ⟨risingLoads, risingStores, risingBranches, risingAddSub, risingMulDiv, List.forall_mem_nil _⟩

/-- What is left of the total when all kinds are taken away. -/
theorem IsUopTotals.generic_isExact {uops : UopTotals} (totals : IsUopTotals a uops)
    (fits : a.trace.Fits a.config) {generic : Quantity} (left : uops.generic = .ok generic) :
    generic.IsExact a.config.cores fun c =>
      a.perCore (.uops .total) c - (uopKinds.map fun kind => a.perCore (.uops kind) c).sum := by
  obtain ⟨rising, total, kinds⟩ := totals.exact fits
  have nonneg : ∀ q ∈ uops.kinds, ∀ c, 0 ≤ q.exact c := by
    intro q member
    obtain ⟨kind, listed, exact⟩ := exists_mem_of_forall₂ kinds member
    exact exact.exact_nonneg fun c _ => (rising kind listed).perCore_nonneg c
  have sums : ∀ c < a.config.cores, (uops.kinds.map fun q => q.exact c).sum =
      (uopKinds.map fun kind => a.perCore (.uops kind) c).sum := by
    intro c inside
    apply congrArg List.sum
    rw [← List.forall₂_eq_eq_eq, List.forall₂_map_left_iff, List.forall₂_map_right_iff]
    exact kinds.imp fun q kind exact => (Quantity.isExact_iff.1 exact).2 c inside
  obtain ⟨shaped, whole⟩ := Quantity.isExact_iff.1 total
  obtain ⟨same, -, rest⟩ := (Quantity.foldlM_sub_eq_ok_iff nonneg).1 left
  rw [shaped] at same rest
  refine Quantity.isExact_iff.2 ⟨same, fun c inside => ?_⟩
  rw [rest c inside, whole c inside, sums c inside]

namespace Report

/-- A result is these integers, one for each core. -/
def Counts (report : Report) (name : String) (cores : Nat) (exact : Nat → Int) : Prop :=
  ∃ values, report.results.get? name = some (.ints values) ∧ ExactWords values cores exact

theorem Counts.get?_eq {name other : String} {cores : Nat} {exact : Nat → Int}
    (left : report.Counts name cores exact) (right : report.Counts other cores exact) :
    report.results.get? name = report.results.get? other := by
  obtain ⟨xs, foundX, wordsX⟩ := left
  obtain ⟨ys, foundY, wordsY⟩ := right
  rw [foundX, foundY, wordsX.unique wordsY]

theorem Counts.get?_eq_ints {name : String} {cores : Nat} {exact : Nat → Int} {values : List Int64}
    (counts : report.Counts name cores exact) (words : ExactWords values cores exact) :
    report.results.get? name = some (.ints values) := by
  obtain ⟨found, held, same⟩ := counts
  rw [held, same.unique words]

theorem Counts.exact_eq {name : String} {cores : Nat} {exact : Nat → Int} {values : List Int64}
    (counts : report.Counts name cores exact) (held : report.results.get? name = some (.ints values))
    {c : Nat} (inside : c < cores) : exact c = (values.getD c 0).toInt := by
  obtain ⟨found, given, words⟩ := counts
  cases held.symm.trans given
  obtain ⟨value, present, same⟩ := words.exists_getElem? inside
  rw [← same, List.getD_eq_getElem?_getD, present, Option.getD_some]

/-- The results of micro-ops that are the sum of a metric. -/
def uopMetrics : List (String × Metric) :=
  [("interval_timer.uop_branch", .uops .branch), ("interval_timer.uop_fp_addsub", .uops .fpAddSub),
    ("interval_timer.uop_fp_muldiv", .uops .fpMulDiv), ("interval_timer.uop_load", .uops .load),
    ("interval_timer.uop_store", .uops .store), ("interval_timer.uops_total", .uops .total)]

/-- The micro-ops of each kind are counted, and those of no kind are what is left. -/
theorem uop_counts (fits : a.trace.Fits a.config) (built : (build a).outcome = .ok report) :
    (∀ m ∈ uopMetrics, report.Counts m.1 a.config.cores (a.perCore m.2)) ∧
      report.Counts "interval_timer.uop_generic" a.config.cores fun c =>
        a.perCore (.uops .total) c - (uopKinds.map fun kind => a.perCore (.uops kind) c).sum := by
  obtain ⟨uops, generic, totals, left, found⟩ := exists_uops_of_build built
  obtain ⟨-, total, kinds⟩ := totals.exact fits
  simp only [UopTotals.kinds, uopKinds, List.forall₂_cons] at kinds
  obtain ⟨loads, stores, branches, fpAddSub, fpMulDiv, -⟩ := kinds
  simp only [uopEntries, List.forall_mem_cons] at found
  obtain ⟨foundBranches, foundAddSub, foundMulDiv, foundLoads, foundStores, foundGeneric, foundTotal, -⟩ :=
    found
  refine ⟨?_, _, foundGeneric, (totals.generic_isExact fits left).elements⟩
  simp only [uopMetrics, List.forall_mem_cons]
  exact ⟨⟨_, foundBranches, branches.elements⟩, ⟨_, foundAddSub, fpAddSub.elements⟩,
    ⟨_, foundMulDiv, fpMulDiv.elements⟩, ⟨_, foundLoads, loads.elements⟩,
    ⟨_, foundStores, stores.elements⟩, ⟨_, foundTotal, total.elements⟩, List.forall_mem_nil _⟩

theorem core_counts (fits : a.trace.Fits a.config) (built : (build a).outcome = .ok report)
    {m : String × Metric} (listed : m ∈ coreMetrics) {counter : CoreCounter}
    (measured : m.2.gauges = [.core counter]) :
    (∃ shape, m.2.shape a.config a.trace = .ok shape) ∧ a.Rising m.2 ∧
      report.Counts m.1 a.config.cores (a.perCore m.2) := by
  obtain ⟨sum, summed, found⟩ := exists_sum_of_build built listed
  obtain ⟨rising, exact⟩ := isExact_of_aggregate_eq_ok fits measured summed
  exact ⟨shape_of_aggregate_eq_ok summed, rising, _, found, exact.elements⟩

/-- The results of a cache, each with the metric that it is the sum of. -/
def cacheMetrics (r : ReportedCache) : List (String × Metric) :=
  [(s!"{r.label}.load-misses", .cache r.name .loadMisses), (s!"{r.label}.loads", .cache r.name .loads),
    (s!"{r.label}.store-misses", .cache r.name .storeMisses),
    (s!"{r.label}.stores", .cache r.name .stores)]

/-- The four caches that are reported, by name and label. -/
theorem exists_reportedCache {name label : String}
    (listed : (name, label) ∈ [("l1d", "L1-D"), ("l1i", "L1-I"), ("l2", "L2"), ("l3", "L3")]) :
    ∃ r ∈ reportedCaches, r.name = name ∧ r.label = label := by
  have ofCache : (name, label) ∈ reportedCaches.map fun r => (r.name, r.label) := listed
  obtain ⟨r, reported, same⟩ := List.mem_map.1 ofCache
  exact ⟨r, reported, Prod.mk.inj same⟩

/-- The accesses to a reported cache are counted for each core, and its hits and misses never fall. -/
theorem cache_counts (fits : a.trace.Fits a.config) (built : (build a).outcome = .ok report)
    {r : ReportedCache} (reported : r ∈ reportedCaches) :
    ∃ found, a.config.findCache r.name = .ok found ∧ found.2.instances ≤ a.config.cores ∧
      (∀ stat, a.Rising (.cache r.name stat)) ∧
      ∀ m ∈ cacheMetrics r, report.Counts m.1 a.config.cores (a.perCore m.2) := by
  obtain ⟨found, counts, located, sums, listed⟩ := exists_counts_of_build built reported
  obtain ⟨-, -, loadMisses⟩ := sums.loadMisses.exactWords fits (List.cons_ne_nil _ _)
  obtain ⟨room, risingLoads, loads⟩ := sums.loads.exactWords fits (List.cons_ne_nil _ _)
  obtain ⟨-, -, storeMisses⟩ := sums.storeMisses.exactWords fits (List.cons_ne_nil _ _)
  obtain ⟨-, risingStores, stores⟩ := sums.stores.exactWords fits (List.cons_ne_nil _ _)
  refine ⟨found, located, Metric.instances_cache located .loads ▸ room, fun stat => ?_, ?_⟩
  · intro k inside gauge member
    rw [Metric.instances_cache located] at inside
    have ofLoads := risingLoads k (Metric.instances_cache located .loads ▸ inside)
    have ofStores := risingStores k (Metric.instances_cache located .stores ▸ inside)
    -- Every gauge of the cache is one of those of its loads and its stores.
    cases stat with
    | loadHits => exact ofLoads gauge (by simp_all [Metric.gauges, Metric.gauge?])
    | loadMisses => exact ofLoads gauge (by simp_all [Metric.gauges, Metric.gauge?])
    | loads => exact ofLoads gauge member
    | storeHits => exact ofStores gauge (by simp_all [Metric.gauges, Metric.gauge?])
    | storeMisses => exact ofStores gauge (by simp_all [Metric.gauges, Metric.gauge?])
    | stores => exact ofStores gauge member
  · simp only [CacheCounts.entries, List.forall_mem_cons] at listed
    obtain ⟨foundLoadMisses, foundLoads, foundStoreMisses, foundStores, -⟩ := listed
    simp only [cacheMetrics, List.forall_mem_cons]
    exact ⟨⟨_, foundLoadMisses, loadMisses⟩, ⟨_, foundLoads, loads⟩, ⟨_, foundStoreMisses, storeMisses⟩,
      ⟨_, foundStores, stores⟩, List.forall_mem_nil _⟩

/-- All parts of a report but its times are found. -/
def countsFound (a : Aggregator) : Bool :=
  (settings a.config).isOk && (uopResults a).outcome.isOk &&
    [.mispredictedBranches, .correctBranches, .instructions].all
      (fun metric => (aggregate a.config a.trace metric a.modes).isOk) &&
    reportedCaches.all fun r => Except.isOk <|
      Outcome.ofExcept (a.config.findCache r.name) >>= fun found =>
        (cacheResults a found.2 r.label).outcome

/-- If the clock runs, then a report over one interval is built wherever the cycles of the interval and the
other parts of the report are found. -/
theorem exists_build_of_interval (running : (a.config.frequencyToCycles == 0) = false) {i : Nat}
    (only : a.trace.accepted a.modes = [i]) (reported : a.trace.reports .cycles = true) {cycles : UInt64}
    (spanned : a.trace.intervalCycles a.config i = .ok cycles) {idle : List Int64}
    (counted : a.trace.idleCycles a.config i = .ok idle) (every : idle.length = a.config.cores)
    (found : countsFound a = true) : ∃ report, (build a).outcome = .ok report := by
  simp only [countsFound, Bool.and_eq_true, List.all_eq_true, isOk_iff] at found
  obtain ⟨⟨⟨configured, uops⟩, cores⟩, caches⟩ := found
  have elapsed : aggregate a.config a.trace .elapsedTime a.modes = .ok _ :=
    aggregate_of_accepted_singleton only rfl (Trace.elapsedTimeDelta_eq_ok running spanned)
  have shaped : Metric.shape .idleElapsedTime a.config a.trace = .ok (.array a.config.cores) := by
    simp only [Metric.shape, Metric.coreCounter?, reported]
    rfl
  have idleTimes : aggregate a.config a.trace .idleElapsedTime a.modes = .ok _ :=
    aggregate_of_accepted_singleton only (by rw [shaped, Quantity.shape, List.length_map, every])
      (Trace.idleTimeDelta_eq_ok running counted)
  refine exists_build configured uops ?_ ⟨_, by rw [Aggregator.outcome_total, elapsed]; rfl⟩ caches
  simp only [List.forall_mem_cons] at cores
  obtain ⟨incorrect, correct, instructions, -⟩ := cores
  simp only [coreMetrics, List.forall_mem_cons]
  exact ⟨incorrect, correct, instructions, ⟨_, idleTimes⟩, List.forall_mem_nil _⟩

end Report

end Sniper

namespace Sample

/-- The counters after `n` units of work. -/
def workRaw (n : UInt64) : RawSnapshot where
  phase := 3 * n
  mode := 0
  components := .ofList [
    ("westmere", .ofList [("instrs", .array [100 * n, 50 * n]), ("cycles", .array [60 * n, 40 * n]),
      ("mispredBranches", .array [1 * n, 2 * n]), ("predBranches", .array [9 * n, 8 * n]),
      ("branchUops", .array [10 * n, 11 * n]), ("fpAddSubUops", .array [3 * n, 4 * n]),
      ("fpMulDivUops", .array [5 * n, 6 * n]), ("uops", .array [120 * n, 80 * n])]),
    ("l1d", counters (.scalar <$> [7 * n, 20 * n, 10 * n, 2 * n, 8 * n, 4 * n, 1 * n])),
    ("l1i", counters (.array <$> [[5 * n, 6 * n], [30 * n, 20 * n], [2 * n, 1 * n], [0, 0], [0, 0],
      [0, 0], [0, 0]])),
    ("l2", counters (.scalar <$> [0, 6 * n, 7 * n, 0, 1 * n, 3 * n, 2 * n])),
    ("l3", counters (.scalar <$> [0, 2 * n, 5 * n, 0, 0, 4 * n, 1 * n]))]
where
  counters (values : List RawCounter) : Table RawCounter :=
    .ofList (["fhGETS", "hGETS", "mGETS", "fhGETX", "hGETX", "mGETXIM", "mGETXSM"].zip values)

/-- One interval of four phases, in which one unit of work is done. -/
def work : Aggregator where
  config := config
  trace := ⟨(workRaw 0).view config, [(workRaw 1).view config]⟩
  modes := .all

theorem work_loaded : (Trace.ofRaw config [workRaw 0, workRaw 1]).outcome = .ok work.trace :=
  Trace.ofRaw_of_checks (by decide +kernel) (by decide +kernel)

theorem exists_report : ∃ report, (Sniper.Report.build work).outcome = .ok report :=
  Sniper.Report.exists_build_of_interval (i := 1) running rfl rfl (by rfl) (by rfl) (by rfl) (by decide +kernel)

/-- The accesses to the caches in the interval, by core. -/
def workAccesses : List (String × List Int64) :=
  [("L1-D.load-misses", [10, 0]), ("L1-D.loads", [37, 0]), ("L1-D.store-misses", [5, 0]),
    ("L1-D.stores", [15, 0]), ("L1-I.load-misses", [2, 1]), ("L1-I.loads", [37, 27]),
    ("L1-I.store-misses", [0, 0]), ("L1-I.stores", [0, 0]), ("L2.load-misses", [7, 0]),
    ("L2.loads", [13, 0]), ("L2.store-misses", [5, 0]), ("L2.stores", [6, 0]),
    ("L3.load-misses", [5, 0]), ("L3.loads", [7, 0]), ("L3.store-misses", [5, 0]),
    ("L3.stores", [5, 0])]

theorem get?_of_mem_workAccesses {report : Sniper.Report}
    (built : (Sniper.Report.build work).outcome = .ok report) {name : String} {values : List Int64}
    (listed : (name, values) ∈ workAccesses) :
    report.results.get? name = some (.ints values) := by
  have counted : (Sniper.reportedCaches.flatMap Sniper.Report.cacheMetrics).map
      (fun m => (m.1, (List.range 2).map (work.perCore m.2))) =
        workAccesses.map fun e => (e.1, e.2.map Int64.toInt) := by
    decide +kernel
  have member := List.mem_map_of_mem (f := fun e => (e.1, e.2.map Int64.toInt)) listed
  rw [← counted] at member
  obtain ⟨m, member, same⟩ := List.mem_map.1 member
  obtain ⟨r, reported, ofCache⟩ := List.mem_flatMap.1 member
  obtain ⟨rfl, words⟩ := Prod.mk.inj same
  have fits : work.trace.Fits config := Trace.fits_of_ofRaw work_loaded
  obtain ⟨_, -, -, -, counts⟩ := Sniper.Report.cache_counts fits built reported
  exact (counts m ofCache).get?_eq_ints words.symm

end Sample

end IntervalStats
