import IntervalStats.Characteristic
import IntervalStats.Proofs.ReportCounts

/-!
# Reports and characteristics

A report gives the accesses to each cache core by core, a characteristic gives them as one number, and
the two are computed apart: a characteristic sums hits from their own counters, where a report leaves
them to be found from accesses and misses. The two never disagree, and the number overflows exactly
where the sum over the cores of the report does.
-/

namespace IntervalStats

variable {a : Aggregator}

/-! ## Evaluation -/

/-- The outcome is this integer if a signed word holds it, and no integer otherwise. -/
def IsInteger (outcome : Outcome Number) (exact : Int) : Prop :=
  ((∃ n, outcome = .ok (.integer n)) ↔ exact ≤ 2 ^ 63 - 1) ∧
    ∀ n, outcome = .ok (.integer n) → n.toInt = exact

theorem outcome_integer_eq_ok_iff {count : Logged Event Failure Int64} {n : Int64} :
    (count >>= fun n => pure (Number.integer n)).outcome = .ok (.integer n) ↔ count.outcome = .ok n := by
  simp only [Logged.outcome_bind, Logged.outcome_pure, bind_eq_ok_iff, Except.ok.injEq,
    Number.integer.injEq, exists_eq_right]

theorem Yields.isInteger {count : Logged Event Failure Int64} {P : Prop} {exact : Int}
    (yields : Yields count.outcome P exact) (admitted : P) :
    IsInteger (count >>= fun n => pure (.integer n)).outcome exact := by
  simp only [IsInteger, outcome_integer_eq_ok_iff]
  refine ⟨?_, fun n got => ((yields.eq_ok_iff n).1 got).2⟩
  rw [yields.exists_ok_iff]
  exact and_iff_right admitted

theorem IsInteger.eq_ok {outcome : Outcome Number} {n : Int64} (given : IsInteger outcome n.toInt) :
    outcome = .ok (.integer n) := by
  obtain ⟨m, got⟩ := given.1.2 (Int.le_sub_one_of_lt n.toInt_lt)
  rw [got, Int64.toInt_inj.1 (given.2 m got)]

namespace Characteristic

/-- Counts of a cache are added up exactly. -/
theorem countAccesses_yields (fits : a.trace.Fits a.config) {name : String} {found : Nat × Cache}
    (located : a.config.findCache name = .ok found) (stats : List CacheStat) :
    Yields (countAccesses a name stats).outcome (∀ stat ∈ stats, a.Rising (.cache name stat))
      (stats.map fun stat => ∑ k ∈ Finset.range found.2.instances,
        a.trace.count a.config a.modes (.cache name stat) k).sum := by
  have each : ∀ stat ∈ stats, Yields (a.total (.cache name stat)).outcome (a.Rising (.cache name stat))
      (∑ k ∈ Finset.range found.2.instances,
        a.trace.count a.config a.modes (.cache name stat) k) := by
    intro stat _
    have total := Aggregator.total_yields fits (Metric.shape_cache located stat)
      (Metric.gauges_cache_ne_nil name stat)
    rwa [Metric.instances_cache located] at total
  have run := Yields.zero.foldlM each
  simp only [true_and, Int.zero_add, ok_bind] at run
  simpa only [countAccesses, Logged.outcome_foldlM, Logged.outcome_bind, Logged.outcome_ofExcept]
    using run

end Characteristic

/-! ## Agreement -/

/-- The accesses that count by how they went, of all accesses and those that missed. -/
def AccessOutcome.among (accesses missed : Int) : AccessOutcome → Int
  | hits => accesses - missed
  | misses => missed
  | any => accesses

/-- The accesses that count by what they did, of loads and stores. -/
def AccessKind.among (loaded stored : Int) : AccessKind → Int
  | loads => loaded
  | stores => stored
  | both => loaded + stored

/-- Hits are what is left of the accesses when misses are taken away. -/
theorem sum_stats_eq {name : String} {found : Nat × Cache}
    (located : a.config.findCache name = .ok found) (room : found.2.instances ≤ a.config.cores)
    (outcome : AccessOutcome) (kind : AccessKind) :
    ((outcome.stats kind).map fun stat => ∑ k ∈ Finset.range found.2.instances,
        a.trace.count a.config a.modes (.cache name stat) k).sum =
      ∑ c ∈ Finset.range a.config.cores,
        kind.among
          (outcome.among (a.perCore (.cache name .loads) c) (a.perCore (.cache name .loadMisses) c))
          (outcome.among (a.perCore (.cache name .stores) c)
            (a.perCore (.cache name .storeMisses) c)) := by
  have spread (stat : CacheStat) : ∑ k ∈ Finset.range found.2.instances,
      a.trace.count a.config a.modes (.cache name stat) k =
        ∑ c ∈ Finset.range a.config.cores, a.perCore (.cache name stat) c := by
    rw [Aggregator.sum_perCore (Metric.instances_cache located stat ▸ room),
      Metric.instances_cache located]
  simp only [spread]
  cases outcome <;> cases kind <;>
    simp [AccessOutcome.stats, AccessOutcome.among, AccessKind.among, Finset.sum_add_distrib,
      Aggregator.perCore_loads located, Aggregator.perCore_stores located]

namespace Sniper

variable {report : Report}

theorem evaluate_cache_agrees (fits : a.trace.Fits a.config)
    (built : (Report.build a).outcome = .ok report) {r : ReportedCache} (reported : r ∈ reportedCaches)
    (outcome : AccessOutcome) (kind : AccessKind) :
    IsInteger ((Characteristic.cache outcome kind false).evaluate a (some r.name)).outcome
      (∑ c ∈ Finset.range a.config.cores,
        kind.among
          (outcome.among (a.perCore (.cache r.name .loads) c)
            (a.perCore (.cache r.name .loadMisses) c))
          (outcome.among (a.perCore (.cache r.name .stores) c)
            (a.perCore (.cache r.name .storeMisses) c))) := by
  obtain ⟨found, located, room, rising, -⟩ := Report.cache_counts fits built reported
  rw [← sum_stats_eq located room]
  exact (Characteristic.countAccesses_yields fits located (outcome.stats kind)).isInteger
    fun stat _ => rising stat

theorem evaluate_instructions_agrees (fits : a.trace.Fits a.config) {shape : Shape}
    (shaped : Metric.shape .instructions a.config a.trace = .ok shape) (rising : a.Rising .instructions)
    (cacheName : Option String) :
    IsInteger (Characteristic.instructions.evaluate a cacheName).outcome
      (∑ c ∈ Finset.range a.config.cores, a.perCore .instructions c) := by
  have every : Metric.instances a.config .instructions = a.config.cores := rfl
  rw [Aggregator.sum_perCore (Nat.le_of_eq every)]
  exact (Aggregator.total_yields fits shaped (List.cons_ne_nil _ _)).isInteger rising

/-- Wherever a report is built, each count of the accesses to a reported cache is the sum over all cores
of the results for that cache, and the instructions are the sum of theirs, unless the sum does not fit
a signed word. -/
theorem evaluate_agrees_with_report {raws : List RawSnapshot}
    (loaded : (Trace.ofRaw a.config raws).outcome = .ok a.trace)
    (built : (Report.build a).outcome = .ok report) :
    (∀ name label, (name, label) ∈ [("l1d", "L1-D"), ("l1i", "L1-I"), ("l2", "L2"), ("l3", "L3")] →
      ∃ loadMisses loads storeMisses stores : Nat → Int,
        report.Counts s!"{label}.load-misses" a.config.cores loadMisses ∧
        report.Counts s!"{label}.loads" a.config.cores loads ∧
        report.Counts s!"{label}.store-misses" a.config.cores storeMisses ∧
        report.Counts s!"{label}.stores" a.config.cores stores ∧
        ∀ outcome kind,
          IsInteger ((Characteristic.cache outcome kind false).evaluate a (some name)).outcome
            (∑ c ∈ Finset.range a.config.cores,
              AccessKind.among (outcome.among (loads c) (loadMisses c))
                (outcome.among (stores c) (storeMisses c)) kind)) ∧
    ∃ instructions : Nat → Int,
      report.Counts "performance_model.instruction_count" a.config.cores instructions ∧
      ∀ cacheName, IsInteger (Characteristic.instructions.evaluate a cacheName).outcome
        (∑ c ∈ Finset.range a.config.cores, instructions c) := by
  have fits := Trace.fits_of_ofRaw loaded
  constructor
  · intro name label listed
    obtain ⟨r, reported, rfl, rfl⟩ := Report.exists_reportedCache listed
    obtain ⟨_, -, -, -, counts⟩ := Report.cache_counts fits built reported
    simp only [Report.cacheMetrics, List.forall_mem_cons] at counts
    obtain ⟨loadMisses, loads, storeMisses, stores, -⟩ := counts
    exact ⟨_, _, _, _, loadMisses, loads, storeMisses, stores, evaluate_cache_agrees fits built reported⟩
  · obtain ⟨⟨_, shaped⟩, rising, counts⟩ := Report.core_counts fits built
      (m := ("performance_model.instruction_count", .instructions)) (by simp [coreMetrics]) rfl
    exact ⟨_, counts, evaluate_instructions_agrees fits shaped rising⟩

/-- A number that agrees with what a report counts is the sum of the entries of the report. -/
theorem eq_ok_of_entries {label : String} {cores : Nat}
    {loadMisses loads storeMisses stores : Nat → Int}
    (ofLoadMisses : report.Counts s!"{label}.load-misses" cores loadMisses)
    (ofLoads : report.Counts s!"{label}.loads" cores loads)
    (ofStoreMisses : report.Counts s!"{label}.store-misses" cores storeMisses)
    (ofStores : report.Counts s!"{label}.stores" cores stores) {counts : CacheCounts}
    (given : ∀ e ∈ counts.entries label, report.results.get? e.1 = some e.2) {outcome : AccessOutcome}
    {kind : AccessKind} {result : Outcome Number} {n : Int64}
    (agree : IsInteger result (∑ c ∈ Finset.range cores,
      kind.among (outcome.among (loads c) (loadMisses c)) (outcome.among (stores c) (storeMisses c))))
    (whole : ∑ c ∈ Finset.range cores,
      kind.among (outcome.among (counts.loads.getD c 0).toInt (counts.loadMisses.getD c 0).toInt)
        (outcome.among (counts.stores.getD c 0).toInt (counts.storeMisses.getD c 0).toInt) = n.toInt) :
    result = .ok (.integer n) := by
  simp only [CacheCounts.entries, List.forall_mem_cons] at given
  obtain ⟨heldLoadMisses, heldLoads, heldStoreMisses, heldStores, -⟩ := given
  apply IsInteger.eq_ok
  rw [← whole]
  refine (congrArg (IsInteger result) (Finset.sum_congr rfl fun c member => ?_)).mp agree
  have inside := Finset.mem_range.1 member
  rw [ofLoadMisses.exact_eq heldLoadMisses inside, ofLoads.exact_eq heldLoads inside,
    ofStoreMisses.exact_eq heldStoreMisses inside, ofStores.exact_eq heldStores inside]

/-- Numbers of the sample that its report gives core by core, or leaves to be found from accesses and
misses. -/
theorem evaluate_agrees_with_report_sample :
    ∃ report, (Report.build Sample.work).outcome = .ok report ∧
      (∀ e ∈ Sample.workAccesses, report.results.get? e.1 = some (.ints e.2)) ∧
      report.results.get? "performance_model.instruction_count" = some (.ints [100, 50]) ∧
      ((Characteristic.cache .hits .stores false).evaluate Sample.work (some "l1d")).outcome =
        .ok (.integer 10) ∧
      ((Characteristic.cache .any .loads false).evaluate Sample.work (some "l1i")).outcome =
        .ok (.integer 64) ∧
      ((Characteristic.cache .misses .both false).evaluate Sample.work (some "l2")).outcome =
        .ok (.integer 12) ∧
      ((Characteristic.cache .hits .both false).evaluate Sample.work (some "l3")).outcome =
        .ok (.integer 2) ∧
      (Characteristic.instructions.evaluate Sample.work none).outcome = .ok (.integer 150) := by
  obtain ⟨report, built⟩ := Sample.exists_report
  obtain ⟨caches, instructions, counted, total⟩ :=
    evaluate_agrees_with_report (a := Sample.work) Sample.work_loaded built
  have accesses : ∀ e ∈ Sample.workAccesses, report.results.get? e.1 = some (.ints e.2) :=
    fun e listed => Sample.get?_of_mem_workAccesses built listed
  have executed : report.results.get? "performance_model.instruction_count" = some (.ints [100, 50]) := by
    have fits : Sample.work.trace.Fits Sample.config := Trace.fits_of_ofRaw Sample.work_loaded
    obtain ⟨-, -, counts⟩ := Report.core_counts fits built
      (m := ("performance_model.instruction_count", .instructions)) (by simp [coreMetrics]) rfl
    exact counts.get?_eq_ints (by decide +kernel)
  have agrees {name label : String} (counts : CacheCounts) {n : Int64}
      (listed : (name, label) ∈ [("l1d", "L1-D"), ("l1i", "L1-I"), ("l2", "L2"), ("l3", "L3")])
      (given : ∀ e ∈ [(s!"{label}.load-misses", counts.loadMisses), (s!"{label}.loads", counts.loads),
        (s!"{label}.store-misses", counts.storeMisses), (s!"{label}.stores", counts.stores)],
        e ∈ Sample.workAccesses)
      (outcome : AccessOutcome) (kind : AccessKind)
      (whole : ∑ c ∈ Finset.range 2,
        kind.among (outcome.among (counts.loads.getD c 0).toInt (counts.loadMisses.getD c 0).toInt)
          (outcome.among (counts.stores.getD c 0).toInt (counts.storeMisses.getD c 0).toInt) = n.toInt) :
      ((Characteristic.cache outcome kind false).evaluate Sample.work (some name)).outcome =
        .ok (.integer n) := by
    obtain ⟨_, _, _, _, ofLoadMisses, ofLoads, ofStoreMisses, ofStores, agree⟩ := caches name label listed
    have held : ∀ e ∈ counts.entries label, report.results.get? e.1 = some e.2 := by
      simp only [CacheCounts.entries, List.forall_mem_cons] at given ⊢
      exact ⟨accesses _ given.1, accesses _ given.2.1, accesses _ given.2.2.1, accesses _ given.2.2.2.1,
        List.forall_mem_nil _⟩
    exact eq_ok_of_entries ofLoadMisses ofLoads ofStoreMisses ofStores held (agree outcome kind) whole
  have instructionsAgree := total none
  change IsInteger _ (∑ c ∈ Finset.range 2, instructions c) at instructionsAgree
  rw [Finset.sum_range_succ, Finset.sum_range_one, counted.exact_eq executed (by decide),
    counted.exact_eq executed (by decide)] at instructionsAgree
  refine ⟨report, built, accesses, executed, ?_, ?_, ?_, ?_, IsInteger.eq_ok instructionsAgree⟩
  · exact agrees ⟨[10, 0], [37, 0], [5, 0], [15, 0]⟩ (.head _) (by decide) .hits .stores (by decide)
  · exact agrees ⟨[2, 1], [37, 27], [0, 0], [0, 0]⟩ (.tail _ (.head _)) (by decide) .any .loads (by decide)
  · exact agrees ⟨[7, 0], [13, 0], [5, 0], [6, 0]⟩ (.tail _ (.tail _ (.head _))) (by decide) .misses .both
      (by decide)
  · exact agrees ⟨[5, 0], [7, 0], [5, 0], [5, 0]⟩ (.tail _ (.tail _ (.tail _ (.head _)))) (by decide) .hits
      .both (by decide)

end Sniper

end IntervalStats
