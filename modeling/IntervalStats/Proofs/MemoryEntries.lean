import IntervalStats.Proofs.ReportLayout

/-!
# Memory in a report

A cache on the deepest level stands in for memory (`Report.StandsForMemory`): each of its misses is an
access to memory. Only four caches are reported, of which the one of the third level lies deepest, while
the deepest level is sought among all caches. So memory has its two results exactly if no cache lies
beyond the third level; with a fourth level it has none (`Report.memory_of_third_level`).
-/

namespace IntervalStats

namespace Sniper

variable {a : Aggregator}

theorem PaddedSum.eq_append {metric : Metric} {values : List Int64} (padded : PaddedSum a metric values) :
    ∃ q, aggregate a.config a.trace metric a.modes = .ok q ∧
      values = q.elements ++ List.replicate (a.config.cores - q.elements.length) 0 := by
  obtain ⟨q, what, summed, extended⟩ := padded
  exact ⟨q, summed, (Quantity.padded_eq_ok_iff_append.1 extended).2⟩

theorem mem_reportedCaches_third : ⟨"l3", "L3", "l3_cache"⟩ ∈ reportedCaches :=
  .tail _ (.tail _ (.tail _ (.head _)))

theorem isLastLevel_of_findCache {config : Config} (checked : config.Checked) {last : Nat × Cache}
    (located : config.findCache "l3" = .ok last) :
    config.isLastLevel last.2 = true ↔ ∀ cache ∈ config.caches, cache.id.level ≤ 3 := by
  have third : CacheId.parse "l3" = .ok ⟨3, "l3"⟩ := by decide
  have reached : last.2.id.level ≤ config.cacheLevels :=
    Config.level_le_cacheLevels (List.mem_of_getElem? (Config.findCache_eq_ok located).1)
  rw [id_of_findCache checked third located] at reached
  rw [Config.isLastLevel, id_of_findCache checked third located, decide_eq_true_iff,
    ← Config.cacheLevels_le_iff]
  show 3 = config.cacheLevels ↔ config.cacheLevels ≤ 3
  have : 3 ≤ config.cacheLevels := reached
  omega

namespace Report

variable {report : Report}

/-- The results of memory are the misses of a cache, with zeros for the cores beyond its instances. -/
def StandsForMemory (a : Aggregator) (report : Report) (cache : Cache) : Prop :=
  ∃ reads writes, aggregate a.config a.trace (.cache cache.id.name .loadMisses) a.modes = .ok reads ∧
    aggregate a.config a.trace (.cache cache.id.name .storeMisses) a.modes = .ok writes ∧
    report.results.get? "dram.reads" =
      some (.ints (reads.elements ++ List.replicate (a.config.cores - reads.elements.length) 0)) ∧
    report.results.get? "dram.writes" =
      some (.ints (writes.elements ++ List.replicate (a.config.cores - writes.elements.length) 0))

/-- The results of memory are the misses of some cache on the deepest level. -/
def HasMemory (a : Aggregator) (report : Report) : Prop :=
  ∃ cache ∈ a.config.caches, cache.id.level = a.config.cacheLevels ∧ StandsForMemory a report cache

theorem standsForMemory_of_isLastLevel (checked : a.config.Checked) (fits : a.trace.Fits a.config)
    (built : (build a).outcome = .ok report) {last : Nat × Cache}
    (located : a.config.findCache "l3" = .ok last) (deepest : a.config.isLastLevel last.2 = true) :
    StandsForMemory a report last.2 := by
  obtain ⟨-, listed, -, summed, -, kept⟩ := (hasLayout_of_build checked fits built).kept
  obtain ⟨-, -, -, -, counted⟩ := isResults_of_eq_ok summed
  obtain ⟨part, listedPart, found, counts, located', sums, rfl⟩ :=
    exists_mem_of_forall₂ counted mem_reportedCaches_third
  cases located.symm.trans located'
  -- No name is given twice, so nothing takes the place of what is listed for memory.
  have given {e : String × Entry} (member : e ∈ counts.memoryEntries) :
      report.results.get? e.1 = some e.2 := by
    rw [Table.get?_eq_some_iff, kept.mem_iff]
    refine List.mem_append_right _ (List.mem_flatten.2 ⟨_, listedPart, List.mem_append_left _ ?_⟩)
    rwa [if_pos deepest]
  obtain ⟨reads, gotReads, eqReads⟩ := sums.loadMisses.eq_append
  obtain ⟨writes, gotWrites, eqWrites⟩ := sums.storeMisses.eq_append
  have named : last.2.id.name = "l3" := (Config.findCache_eq_ok located).2
  refine ⟨reads, writes, named ▸ gotReads, named ▸ gotWrites, ?_, ?_⟩
  · rw [← eqReads]
    exact given (List.mem_cons_self ..)
  · rw [← eqWrites]
    exact given (List.mem_cons_of_mem _ (List.mem_cons_self ..))

theorem get?_memory_eq_none (checked : a.config.Checked) (fits : a.trace.Fits a.config)
    (built : (build a).outcome = .ok report) (deeper : ∃ cache ∈ a.config.caches, 3 < cache.id.level) :
    ∀ name ∈ memoryNames, report.results.get? name = none := by
  obtain ⟨-, listed, -, summed, -, kept⟩ := (hasLayout_of_build checked fits built).kept
  obtain ⟨last, located, names⟩ := (isResults_of_eq_ok summed).exists_names checked
  have notLast : ¬a.config.isLastLevel last.2 = true := by
    rw [isLastLevel_of_findCache checked located]
    obtain ⟨cache, member, deep⟩ := deeper
    exact fun shallow => Nat.not_le.2 deep (shallow cache member)
  rw [if_neg notLast, List.append_nil] at names
  intro name ofMemory
  by_contra present
  obtain ⟨value, got⟩ := Option.ne_none_iff_exists'.1 present
  have held : name ∈ listed.map (·.1) :=
    List.mem_map_of_mem (f := Prod.fst) (kept.mem_iff.1 (Table.get?_eq_some_iff.1 got))
  have apart := (List.nodup_append.1 nodup_allNames).2.2
  exact apart name (names.mem_iff.1 held) name ofMemory rfl

theorem exists_third_level (checked : a.config.Checked) (fits : a.trace.Fits a.config)
    (built : (build a).outcome = .ok report)
    (shallow : ∀ cache ∈ a.config.caches, cache.id.level ≤ 3) :
    ∃ cache ∈ a.config.caches, cache.id = ⟨3, "l3"⟩ ∧ cache.id.level = a.config.cacheLevels ∧
      StandsForMemory a report cache := by
  obtain ⟨last, located, -⟩ :=
    (hasLayout_of_build checked fits built).caches _ mem_reportedCaches_third
  have deepest := (isLastLevel_of_findCache checked located).2 shallow
  exact ⟨last.2, List.mem_of_getElem? (Config.findCache_eq_ok located).1,
    id_of_findCache checked (by decide) located, of_decide_eq_true deepest,
    standsForMemory_of_isLastLevel checked fits built located deepest⟩

theorem hasMemory_iff (checked : a.config.Checked) (fits : a.trace.Fits a.config)
    (built : (build a).outcome = .ok report) :
    HasMemory a report ↔ ∀ cache ∈ a.config.caches, cache.id.level ≤ 3 := by
  constructor
  · rintro ⟨cache, -, -, reads, writes, -, -, given, -⟩
    by_contra deeper
    rw [get?_memory_eq_none checked fits built (by simpa using deeper) "dram.reads" (by decide)] at given
    cases given
  · intro shallow
    obtain ⟨cache, member, -, deepest, stands⟩ := exists_third_level checked fits built shallow
    exact ⟨cache, member, deepest, stands⟩

/-- Memory has its results in a report exactly if no cache lies beyond the third level. They are then the
misses of the cache `l3`, and otherwise neither of the two is there. -/
theorem memory_of_third_level {raw : Config.Raw} {raws : List RawSnapshot}
    (configured : Config.ofRaw raw = .ok a.config)
    (loaded : (Trace.ofRaw a.config raws).outcome = .ok a.trace)
    (built : (build a).outcome = .ok report) :
    (HasMemory a report ↔ ∀ cache ∈ a.config.caches, cache.id.level ≤ 3) ∧
    (HasMemory a report →
      ∃ cache ∈ a.config.caches, cache.id = ⟨3, "l3"⟩ ∧ StandsForMemory a report cache) ∧
    (¬HasMemory a report →
      report.results.get? "dram.reads" = none ∧ report.results.get? "dram.writes" = none) := by
  have checked := Config.checked_of_ofRaw configured
  have fits := Trace.fits_of_ofRaw loaded
  have shallow := hasMemory_iff checked fits built
  refine ⟨shallow, ?_, ?_⟩
  · intro has
    obtain ⟨cache, member, third, -, stands⟩ := exists_third_level checked fits built (shallow.1 has)
    exact ⟨cache, member, third, stands⟩
  · intro none
    have deeper : ∃ cache ∈ a.config.caches, 3 < cache.id.level := by simpa [shallow] using none
    have absent := get?_memory_eq_none checked fits built deeper
    exact ⟨absent "dram.reads" (by decide), absent "dram.writes" (by decide)⟩

end Report

end Sniper

namespace Sample

/-- Two cores with first-level caches of their own, and a fourth level. -/
def deep : Config :=
  { config with
    caches := [cache 1 "l1d" 2, cache 1 "l1i" 2, cache 2 "l2" 1, cache 3 "l3" 1, cache 4 "l4" 1]
    distinct := by decide }

theorem ofRaw_deep :
    Config.ofRaw (rawConfig [("l1d", 2), ("l1i", 2), ("l2", 1), ("l3", 1), ("l4", 1)]) = .ok deep := by
  refine Config.ofRaw_eq_ok_iff.2
    ⟨"westmere", ⟨2, "OOO"⟩, deep.caches, rfl, ?_, ?_, rfl, rfl, rfl, rfl⟩
  · exact .cons rfl (.cons rfl (.cons rfl (.cons rfl (.cons rfl .nil))))
  · exact (List.mergeSort_of_pairwise (by decide)).symm

def deepRaw (n : UInt64) : RawSnapshot where
  phase := n
  mode := 0
  components := .ofList [
    ("westmere", .ofList [("instrs", .array [100 * n, 50 * n]), ("cycles", .array [60 * n, 40 * n]),
      ("mispredBranches", .array [1 * n, 2 * n]), ("predBranches", .array [9 * n, 8 * n]),
      ("branchUops", .array [10 * n, 10 * n]), ("fpAddSubUops", .array [0, 0]),
      ("fpMulDivUops", .array [0, 0]), ("uops", .array [120 * n, 80 * n])]),
    ("l1d", workRaw.counters (.array <$> [[0, 0], [20 * n, 20 * n], [10 * n, 10 * n], [0, 0],
      [8 * n, 8 * n], [4 * n, 4 * n], [0, 0]])),
    ("l1i", workRaw.counters (List.replicate 7 (.array [0, 0]))),
    ("l2", unfiltered [10 * n, 10 * n, 2 * n, 6 * n, 0]),
    ("l3", unfiltered [3 * n, 7 * n, 1 * n, 5 * n, 0]),
    ("l4", unfiltered [2 * n, 5 * n, 1 * n, 3 * n, 1 * n])]
where
  unfiltered (values : List UInt64) : Table RawCounter :=
    .ofList (["hGETS", "mGETS", "hGETX", "mGETXIM", "mGETXSM"].zip (values.map fun v => .array [v]))

/-- One interval, in which five loads and four stores miss the fourth level. -/
def deepWork : Aggregator where
  config := deep
  trace := ⟨(deepRaw 0).view deep, [(deepRaw 1).view deep]⟩
  modes := .all

theorem deepWork_loaded : (Trace.ofRaw deep [deepRaw 0, deepRaw 1]).outcome = .ok deepWork.trace :=
  Trace.ofRaw_of_checks (by decide +kernel) (by decide +kernel)

theorem exists_deepReport : ∃ report, (Sniper.Report.build deepWork).outcome = .ok report :=
  Sniper.Report.exists_build_of_interval (i := 1) running rfl rfl (by rfl) (by rfl) (by rfl) (by decide +kernel)

end Sample

namespace Sniper.Report

/-- In the sample the misses of the third level are the accesses to memory. -/
theorem memory_of_third_level_sample :
    ∃ report, (build Sample.work).outcome = .ok report ∧ HasMemory Sample.work report ∧
      StandsForMemory Sample.work report (Sample.cache 3 "l3" 1) ∧
      report.results.get? "dram.reads" = some (.ints [5, 0]) ∧
      report.results.get? "dram.writes" = some (.ints [5, 0]) := by
  obtain ⟨report, built⟩ := Sample.exists_report
  obtain ⟨has, third, -⟩ :=
    memory_of_third_level (a := Sample.work) Sample.ofRaw_rawConfig Sample.work_loaded built
  have memory := has.2 (by decide)
  obtain ⟨cache, member, named, stands⟩ := third memory
  have only : ∀ cache ∈ Sample.config.caches, cache.id = ⟨3, "l3"⟩ → cache = Sample.cache 3 "l3" 1 := by
    decide
  cases only cache member named
  obtain ⟨reads, writes, sumReads, sumWrites, gotReads, gotWrites⟩ := stands
  have loadMisses : aggregate Sample.config Sample.work.trace (.cache "l3" .loadMisses) .all =
      .ok (.array [5]) := by rfl
  have storeMisses : aggregate Sample.config Sample.work.trace (.cache "l3" .storeMisses) .all =
      .ok (.array [5]) := by rfl
  cases loadMisses.symm.trans sumReads
  cases storeMisses.symm.trans sumWrites
  exact ⟨report, built, memory, ⟨_, _, sumReads, sumWrites, gotReads, gotWrites⟩, gotReads, gotWrites⟩

/-- With a fourth level a report is made, but none of its results is of memory, although accesses miss that
level. -/
theorem no_memory_of_fourth_level :
    (∃ raw, Config.ofRaw raw = .ok Sample.deep) ∧
    (∃ raws, (Trace.ofRaw Sample.deep raws).outcome = .ok Sample.deepWork.trace) ∧
    aggregate Sample.deep Sample.deepWork.trace (.cache "l4" .loadMisses) .all = .ok (.array [5]) ∧
    aggregate Sample.deep Sample.deepWork.trace (.cache "l4" .storeMisses) .all = .ok (.array [4]) ∧
    ∃ report, (build Sample.deepWork).outcome = .ok report ∧
      report.results.get? "dram.reads" = none ∧ report.results.get? "dram.writes" = none ∧
      ¬HasMemory Sample.deepWork report := by
  obtain ⟨report, built⟩ := Sample.exists_deepReport
  have checked : Sample.deepWork.config.Checked := Config.checked_of_ofRaw Sample.ofRaw_deep
  have fits : Sample.deepWork.trace.Fits Sample.deep := Trace.fits_of_ofRaw Sample.deepWork_loaded
  have absent :=
    get?_memory_eq_none checked fits built ⟨Sample.cache 4 "l4" 1, by decide, by decide⟩
  have noReads := absent "dram.reads" (by decide)
  refine ⟨⟨_, Sample.ofRaw_deep⟩, ⟨_, Sample.deepWork_loaded⟩, by rfl, by rfl, report, built, noReads,
    absent "dram.writes" (by decide), ?_⟩
  rintro ⟨cache, -, -, reads, writes, -, -, given, -⟩
  cases noReads.symm.trans given

end Sniper.Report

end IntervalStats
