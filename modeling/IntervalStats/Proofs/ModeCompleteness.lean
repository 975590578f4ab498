import IntervalStats.Characteristic
import IntervalStats.SniperReport
import IntervalStats.Proofs.AggregatorCounts
import IntervalStats.Proofs.IntervalChange

/-!
# What modes can change

Mode sets that accept the same modes of the intervals of a trace cannot be told apart by any result
taken from it, failures included: not by a sum, not by a characteristic and not by a report. All
results are made of sums (`Aggregator.sameOutcomes_of_sums`), and a sum depends on a mode set by the
places that it accepts. The modes of a trace are those of its intervals, so the mode of the baseline,
which closes none, changes no result either.
-/

namespace IntervalStats

/-! ## Results are made of sums -/

namespace Aggregator

variable {a b : Aggregator}

/-- No result tells the two apart: all sums, characteristics and reports have the same value or the same
failure. -/
structure SameOutcomes (a b : Aggregator) : Prop where
  sums : ∀ metric, aggregate a.config a.trace metric a.modes = aggregate b.config b.trace metric b.modes
  characteristics : ∀ (c : Characteristic) cacheName,
    (c.evaluate a cacheName).outcome = (c.evaluate b cacheName).outcome
  report : (Sniper.Report.build a).outcome = (Sniper.Report.build b).outcome

section Congruence

variable (sums : ∀ metric, (a.sum metric).outcome = (b.sum metric).outcome)
include sums

theorem outcome_total_congr (metric : Metric) : (a.total metric).outcome = (b.total metric).outcome := by
  simp only [total, Logged.outcome_bind, sums]

theorem outcome_countAccesses_congr (name : String) (stats : List CacheStat) :
    (Characteristic.countAccesses a name stats).outcome =
      (Characteristic.countAccesses b name stats).outcome := by
  simp only [Characteristic.countAccesses, Logged.outcome_foldlM, Logged.outcome_bind,
    outcome_total_congr sums]

theorem outcome_evaluate_congr (c : Characteristic) (cacheName : Option String) :
    (c.evaluate a cacheName).outcome = (c.evaluate b cacheName).outcome := by
  have totals := outcome_total_congr sums
  cases c with
  | cache outcome kind perKilo =>
    have counts := outcome_countAccesses_congr sums
    cases cacheName with
    | none => rfl
    | some name =>
      cases perKilo with
      | false =>
        simp only [Characteristic.evaluate, Logged.outcome_bind, counts]
        rfl
      | true =>
        simp only [Characteristic.evaluate, Logged.outcome_bind, counts, totals, if_true]
  | _ => simp only [Characteristic.evaluate, Logged.outcome_bind, totals]

variable (config : a.config = b.config)
include config

theorem outcome_cacheResults_congr (cache : Cache) (label : String) :
    (Sniper.cacheResults a cache label).outcome = (Sniper.cacheResults b cache label).outcome := by
  have counts : (Sniper.cacheCounts a cache.id.name label).outcome =
      (Sniper.cacheCounts b cache.id.name label).outcome := by
    simp only [Sniper.cacheCounts, Logged.outcome_bind, sums, config]
  simp only [Sniper.cacheResults, Logged.outcome_bind, counts, config]

theorem outcome_build_congr : (Sniper.Report.build a).outcome = (Sniper.Report.build b).outcome := by
  have uops : (Sniper.uopResults a).outcome = (Sniper.uopResults b).outcome := by
    simp only [Sniper.uopResults, Sniper.uopTotals, Logged.outcome_bind, sums, config]
  have cores : (Sniper.coreResults a).outcome = (Sniper.coreResults b).outcome := by
    simp only [Sniper.coreResults, Logged.outcome_mapM, Logged.outcome_bind, sums]
  have times : (Sniper.timeResults a).outcome = (Sniper.timeResults b).outcome := by
    simp only [Sniper.timeResults, Logged.outcome_bind, outcome_total_congr sums, config]
  simp only [Sniper.Report.build, Sniper.results, Logged.outcome_bind, Logged.outcome_mapM, uops, cores,
    times, outcome_cacheResults_congr sums config, config]

end Congruence

/-- Aggregators of one configuration with the same sums have the same results. -/
theorem sameOutcomes_of_sums (config : a.config = b.config)
    (sums : ∀ metric,
      aggregate a.config a.trace metric a.modes = aggregate b.config b.trace metric b.modes) :
    a.SameOutcomes b := by
  have outcomes : ∀ metric, (a.sum metric).outcome = (b.sum metric).outcome := by
    simpa only [outcome_sum] using sums
  exact ⟨sums, outcome_evaluate_congr outcomes, outcome_build_congr outcomes config⟩

end Aggregator

/-! ## The modes of a trace -/

theorem Modes.mem_ofList {mode : Int64} {values : List Int64} :
    mode ∈ (Modes.ofList values).values ↔ mode ∈ values := by
  have inserted (modes : Modes) :
      mode ∈ (values.foldl Modes.insert modes).values ↔ mode ∈ modes.values ∨ mode ∈ values := by
    induction values generalizing modes with
    | nil => simp
    | cons first rest ih =>
      rw [List.foldl_cons, ih, Modes.insert, mem_insertMode, List.mem_cons, or_assoc, or_left_comm]
  rw [Modes.ofList, inserted]
  simp [Modes.empty]

namespace Trace

variable {config : Config} {trace : Trace} {raws : List RawSnapshot}

theorem mem_modes {mode : Int64} :
    mode ∈ trace.modes.values ↔ ∃ s ∈ trace.later, s.mode = mode := by
  rw [modes, Modes.mem_ofList, List.mem_map]

/-- Mode sets that agree on the modes of a trace accept the same intervals. -/
theorem accepted_congr {left right : ModeSet}
    (agree : ∀ mode ∈ trace.modes.values, left.contains mode = right.contains mode) :
    trace.accepted left = trace.accepted right := by
  have same : ∀ p ∈ trace.later.zipIdx 1, left.contains p.1.mode = right.contains p.1.mode := by
    intro p member
    exact agree _ (mem_modes.2 ⟨p.1, List.fst_mem_of_mem_zipIdx member, rfl⟩)
  rw [accepted, accepted, List.filter_congr same]

theorem contains_modes {mode : Int64} (member : mode ∈ trace.modes.values) :
    (ModeSet.only trace.modes).contains mode = true := by
  simpa [ModeSet.contains] using member

/-! ## The mode of the baseline -/

/-- The trace with another mode of the baseline. -/
def retag (trace : Trace) (mode : Int64) : Trace :=
  { trace with baseline := { trace.baseline with mode } }

theorem ofRaw_retag (loaded : (ofRaw config raws).outcome = .ok trace) (mode : Int64) :
    (ofRaw config (raws.modifyHead fun s => { s with mode })).outcome = .ok (trace.retag mode) := by
  obtain ⟨views, complete, uniform⟩ := ofRaw_eq_ok_iff.1 loaded
  cases raws with
  | nil => cases views
  | cons first rest =>
    rw [List.forall_mem_cons] at complete
    obtain ⟨required, cores, caches⟩ := complete.1
    obtain ⟨baseline, later⟩ := List.cons.inj views
    rw [snapshots, List.forall_mem_cons] at uniform
    refine ofRaw_eq_ok_iff.2 ⟨?_, ?_, ?_⟩
    · rw [snapshots, retag, baseline, later]
      rfl
    · exact List.forall_mem_cons.2 ⟨⟨required, cores, caches⟩, complete.2⟩
    · exact List.forall_mem_cons.2 ⟨uniform.1, uniform.2⟩

/-- Every interval of the trace has the same counters at both ends, whatever the mode of the baseline. -/
theorem sameInterval_retag {modes : ModeSet} {i : Nat} (accepts : trace.Accepts modes i)
    (mode : Int64) : trace.SameInterval i (trace.retag mode) i := by
  obtain ⟨j, before, after, rfl, first, last⟩ := accepts.exists_ends
  cases j with
  | zero =>
    have baseline : (trace.retag mode).snapshots[0]? = some { before with mode } := by
      cases first
      rfl
    exact .intro (interval_eq_ok first last) (interval_eq_ok baseline last) ⟨rfl, rfl, rfl⟩ (.refl _)
  | succ j => exact .intro (interval_eq_ok first last) (interval_eq_ok first last) (.refl _) (.refl _)

end Trace

/-! ## Completeness -/

section Completeness

variable {config : Config} {trace : Trace}

theorem sameOutcomes_of_modes_agree {left right : ModeSet}
    (agree : ∀ mode ∈ trace.modes.values, left.contains mode = right.contains mode) :
    Aggregator.SameOutcomes ⟨config, trace, left⟩ ⟨config, trace, right⟩ := by
  refine Aggregator.sameOutcomes_of_sums rfl ?_
  refine aggregate_congr (fun _ => rfl) (Trace.accepted_congr agree) fun i accepts => ?_
  exact accepts.sameInterval 0 fun _ _ => rfl

theorem sameOutcomes_retag (modes : ModeSet) (mode : Int64) :
    Aggregator.SameOutcomes ⟨config, trace, modes⟩ ⟨config, trace.retag mode, modes⟩ := by
  refine Aggregator.sameOutcomes_of_sums rfl ?_
  refine aggregate_congr (fun _ => rfl) rfl fun i accepts => ?_
  exact Trace.sameInterval_retag accepts mode

/-- Mode sets that agree on the modes of a loaded trace have the same outcomes, as have all modes and
just those of the trace. Another mode of the first stored snapshot loads too, and changes no outcome. -/
theorem modes_complete {raws : List RawSnapshot}
    (loaded : (Trace.ofRaw config raws).outcome = .ok trace) :
    (∀ left right : ModeSet,
      (∀ mode ∈ trace.modes.values, left.contains mode = right.contains mode) →
      Aggregator.SameOutcomes ⟨config, trace, left⟩ ⟨config, trace, right⟩) ∧
    Aggregator.SameOutcomes ⟨config, trace, .all⟩ ⟨config, trace, .only trace.modes⟩ ∧
    ∀ mode,
      (Trace.ofRaw config (raws.modifyHead fun s => { s with mode })).outcome =
        .ok (trace.retag mode) ∧
      ∀ modes, Aggregator.SameOutcomes ⟨config, trace, modes⟩ ⟨config, trace.retag mode, modes⟩ := by
  refine ⟨fun left right => sameOutcomes_of_modes_agree, sameOutcomes_of_modes_agree ?_, fun mode => ?_⟩
  · intro mode member
    rw [Trace.contains_modes member]
    rfl
  · exact ⟨Trace.ofRaw_retag loaded mode, fun modes => sameOutcomes_retag modes mode⟩

end Completeness

/-- A mode that no interval has makes no difference to the report of the sample. A baseline of a mode that
counts still closes no interval. -/
theorem modes_complete_sample :
    (Sniper.Report.build ⟨Sample.config, Sample.trace, .all⟩).outcome =
      (Sniper.Report.build ⟨Sample.config, Sample.trace, .only (.ofList [0, 1, 7])⟩).outcome ∧
    (Trace.ofRaw Sample.config (Sample.raws.modifyHead fun s => { s with mode := 1 })).outcome =
      .ok (Sample.trace.retag 1) ∧
    aggregate Sample.config (Sample.trace.retag 1) .cycles (.only (.ofList [1])) =
      .ok (.array [96, 192]) := by
  obtain ⟨agreeing, -, retagged⟩ := modes_complete Sample.loaded
  have agree : ∀ mode ∈ Sample.trace.modes.values,
      ModeSet.all.contains mode = (ModeSet.only (.ofList [0, 1, 7])).contains mode := by
    change ∀ mode ∈ [0, 1], _
    simp only [List.forall_mem_cons]
    exact ⟨rfl, rfl, List.forall_mem_nil _⟩
  obtain ⟨loaded, same⟩ := retagged 1
  refine ⟨(agreeing _ _ agree).report, loaded, ?_⟩
  rw [← (same (.only (.ofList [1]))).sums .cycles]
  rfl

end IntervalStats
