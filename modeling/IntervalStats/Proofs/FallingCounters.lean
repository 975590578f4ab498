import IntervalStats.Proofs.CountedMetric
import IntervalStats.Proofs.ShapeSafety

/-!
# Falling counters

A counter that falls in an accepted interval makes a sum over it fail. What is compared at the ends of an
interval is a gauge, though, and a gauge of a cache may add two counters: hits of a first-level cache with
those in its filter, or misses of stores on invalid and on shared lines. One of them may then fall
unnoticed (`Trace.Hides`), if the other makes up for it or both sums are cut off at the greatest word.
Nothing else hides a fall (`aggregate_of_falling_counter`).
-/

namespace IntervalStats

/-! ## Counters of a gauge -/

/-- A counter of the cores or of a cache. -/
inductive Source where
  | core (counter : CoreCounter)
  | cache (name : String) (counter : CacheCounter)
  deriving DecidableEq, Repr

/-- The counters that a gauge adds. -/
def Gauge.sources (config : Config) : Gauge → List Source
  | .core counter => [.core counter]
  | .cache name sum =>
    match config.findCache name with
    | .ok (_, found) => (sum.parts found.id.level).map (.cache name)
    | .error _ => []

/-- The value of a counter for one instance, 0 if there is none. -/
def Source.value (config : Config) (s : Snapshot) (source : Source) (k : Nat) : Nat :=
  match source with
  | .core counter => s.coreValue counter k
  | .cache name counter =>
    match config.findCache name with
    | .ok (position, _) => s.cacheValue position counter k
    | .error _ => 0

/-- The gauges that are compared at the ends of an interval. Idle time is what busy cycles leave of it. -/
def Metric.readGauges : Metric → List Gauge
  | .idleElapsedTime => [.core .cycles]
  | metric => metric.gauges

namespace Trace

variable {trace : Trace} {config : Config} {gauge : Gauge} {source : Source} {i k : Nat}

/-- The value of a counter for one instance at the snapshot at an index. -/
def value (trace : Trace) (config : Config) (source : Source) (index k : Nat) : Nat :=
  match trace.snapshots[index]? with
  | some s => source.value config s k
  | none => 0

/-- The sum of counters for one instance at the snapshot at an index, cut off at the greatest word. -/
def cutSum (trace : Trace) (config : Config) (sources : List Source) (index k : Nat) : Nat :=
  min (sources.map fun source => trace.value config source index k).sum (2 ^ 64 - 1)

/-- A gauge adds other counters to this one, and their sum does not fall in an interval. -/
def Hides (trace : Trace) (config : Config) (gauge : Gauge) (source : Source) (i k : Nat) : Prop :=
  (∃ other ∈ gauge.sources config, other ≠ source) ∧
    trace.cutSum config (gauge.sources config) (i - 1) k ≤ trace.cutSum config (gauge.sources config) i k

theorem value_le (trace : Trace) (config : Config) (source : Source) (index k : Nat) :
    trace.value config source index k ≤ 2 ^ 64 - 1 := by
  have word (w : UInt64) : w.toNat ≤ 2 ^ 64 - 1 := by
    have := w.toNat_lt
    omega
  unfold value
  split
  · cases source with
    | core counter => exact word _
    | cache name counter =>
      unfold Source.value
      dsimp only
      split
      · exact word _
      · omega
  · omega

/-- A gauge shows the cut-off sum of its counters. -/
theorem reading_eq_cutSum (trace : Trace) (config : Config) (gauge : Gauge) (index k : Nat) :
    trace.reading config gauge index k = trace.cutSum config (gauge.sources config) index k := by
  cases gauge with
  | core counter =>
    have small := trace.value_le config (.core counter) index k
    simp only [Gauge.sources, cutSum, List.map_singleton, List.sum_singleton]
    rw [Nat.min_eq_left small]
    rfl
  | cache name sum =>
    cases located : config.findCache name with
    | ok found =>
      cases present : trace.snapshots[index]? <;>
        simp [reading, Gauge.reading, cutSum, Gauge.sources, value, Source.value, located, present,
          Function.comp_def]
    | error e =>
      cases present : trace.snapshots[index]? <;>
        simp [reading, Gauge.reading, cutSum, Gauge.sources, located, present]

end Trace

theorem CacheSum.parts_cases (level : Nat) (sum : CacheSum) :
    (∃ c, sum.parts level = [c]) ∨ ∃ c d, c ≠ d ∧ sum.parts level = [c, d] := by
  by_cases first : level = 1 <;> cases sum <;> simp [parts, first]

/-- A counter of a gauge is the only one, or there is another. -/
theorem Gauge.sources_cases {config : Config} {gauge : Gauge} {source : Source}
    (listed : source ∈ gauge.sources config) :
    gauge.sources config = [source] ∨ ∃ other ∈ gauge.sources config, other ≠ source := by
  cases gauge with
  | core counter =>
    cases List.mem_singleton.1 listed
    exact .inl rfl
  | cache name sum =>
    cases located : config.findCache name with
    | error e =>
      simp [sources, located] at listed
    | ok found =>
      have parts : sources config (.cache name sum) = (sum.parts found.2.id.level).map (.cache name) := by
        simp only [sources, located]
      rw [parts] at listed ⊢
      rcases CacheSum.parts_cases found.2.id.level sum with ⟨c, single⟩ | ⟨c, d, distinct, pair⟩
      · rw [single] at listed ⊢
        cases List.mem_singleton.1 listed
        exact .inl rfl
      · rw [pair] at listed ⊢
        right
        by_cases first : source = .cache name c
        · refine ⟨.cache name d, by simp, ?_⟩
          rw [first]
          intro same
          cases same
          exact distinct rfl
        · exact ⟨.cache name c, by simp, Ne.symm first⟩

/-! ## Comparison over an interval -/

section Intervals

variable {config : Config} {trace : Trace} {metric : Metric} {gauge : Gauge} {shape : Shape}
  {modes : ModeSet} {i : Nat} {change : Quantity}

theorem Gauge.instances_of_mem (listed : gauge ∈ metric.gauges) :
    gauge.instances config = metric.instances config := by
  have all : ∀ gauge ∈ metric.gauges, gauge.instances config = metric.instances config := by
    cases metric with
    | uops kind =>
      cases kind <;> simp [Metric.instances, Metric.gauges, Metric.gauge?, Gauge.instances]
    | cache name stat =>
      cases stat <;> simp [Metric.instances, Metric.gauges, Metric.gauge?, Gauge.instances]
    | _ => simp [Metric.instances, Metric.gauges, Metric.gauge?]
  exact all gauge listed

theorem Metric.rise_of_delta_eq_ok (fits : trace.Fits config)
    (shaped : metric.shape config trace = .ok shape) (listed : gauge ∈ metric.gauges)
    (accepts : trace.Accepts modes i) (changed : metric.delta config trace i = .ok change) :
    ∀ k < gauge.instances config,
      trace.reading config gauge (i - 1) k ≤ trace.reading config gauge i k := by
  intro k inside
  have counted := List.ne_nil_of_mem listed
  rw [Gauge.instances_of_mem listed] at inside
  exact (((delta_counts fits counted shaped accepts).eq_ok_iff change).1 changed).1 k inside gauge listed

/-- A change over an interval is given only if no gauge falls. -/
theorem Metric.rise_of_readGauges (fits : trace.Fits config)
    (shaped : metric.shape config trace = .ok shape) (read : gauge ∈ metric.readGauges)
    (accepts : trace.Accepts modes i) (changed : metric.delta config trace i = .ok change) :
    ∀ k < gauge.instances config,
      trace.reading config gauge (i - 1) k ≤ trace.reading config gauge i k := by
  cases metric with
  | idleElapsedTime =>
    -- The busy cycles are taken on the way, as for the metric of cycles.
    obtain ⟨_, -, rest⟩ := bind_eq_ok_iff.1 changed
    obtain ⟨busy, taken, -⟩ := bind_eq_ok_iff.1 rest
    have shaped' : Metric.shape .cycles config trace = .ok shape := by
      rw [← shaped, shape_of_core rfl, shape_of_core rfl]
    exact rise_of_delta_eq_ok fits shaped' read accepts taken
  | _ => exact rise_of_delta_eq_ok fits shaped read accepts changed

end Intervals

/-! ## Sums over accepted intervals -/

section Sums

variable {config : Config} {trace : Trace} {metric : Metric} {gauge : Gauge} {modes : ModeSet}
  {i k : Nat}

/-- A sum is given only if the change over each accepted interval is. -/
theorem exists_delta_of_aggregate {q : Quantity} (summed : aggregate config trace metric modes = .ok q)
    (accepts : trace.Accepts modes i) : ∃ change, metric.delta config trace i = .ok change := by
  rw [aggregate, bind_eq_ok_iff] at summed
  obtain ⟨shape, -, run⟩ := summed
  obtain ⟨sum, next, step⟩ := exists_step_of_foldlM run (Trace.mem_accepted.2 accepts)
  obtain ⟨change, given, -⟩ := bind_eq_ok_iff.1 step
  exact ⟨change, given⟩

/-- If a counter that a metric is built from falls in an accepted interval, then there is no sum, unless
the metric adds this counter to another one and their sum, cut off at the greatest word, does not fall. -/
theorem aggregate_of_falling_counter {raws : List RawSnapshot} {source : Source}
    (loaded : (Trace.ofRaw config raws).outcome = .ok trace) (read : gauge ∈ metric.readGauges)
    (listed : source ∈ gauge.sources config) (accepts : trace.Accepts modes i)
    (inside : k < gauge.instances config)
    (falls : trace.value config source i k < trace.value config source (i - 1) k) :
    (¬∃ q, aggregate config trace metric modes = .ok q) ∨ trace.Hides config gauge source i k := by
  rw [← imp_iff_not_or]
  rintro ⟨q, summed⟩
  obtain ⟨shape, shaped⟩ := shape_of_aggregate_eq_ok summed
  obtain ⟨change, changed⟩ := exists_delta_of_aggregate summed accepts
  have rose := Metric.rise_of_readGauges (Trace.fits_of_ofRaw loaded) shaped read accepts changed k inside
  rw [Trace.reading_eq_cutSum, Trace.reading_eq_cutSum] at rose
  rcases Gauge.sources_cases listed with alone | shared
  · have small := trace.value_le config source (i - 1) k
    simp only [alone, Trace.cutSum, List.map_singleton, List.sum_singleton] at rose
    omega
  · exact ⟨shared, rose⟩

end Sums

/-- In the sample both counters of the stores that miss the last level fall, so they have no sum. -/
theorem aggregate_of_falling_counter_sample :
    ¬∃ q, aggregate Sample.config Sample.trace (.cache "l3" .storeMisses) .all = .ok q := by
  have falling : (¬∃ q, aggregate Sample.config Sample.trace (.cache "l3" .storeMisses) .all = .ok q) ∨
      Sample.trace.Hides Sample.config (.cache "l3" .storeMisses) (.cache "l3" .storeMissesShared) 2 0 :=
    aggregate_of_falling_counter Sample.loaded (.head _) (by decide) (by decide) (by decide)
      (by decide +kernel)
  refine falling.resolve_right ?_
  rintro ⟨-, rose⟩
  have fell : ¬Sample.trace.cutSum Sample.config
      (Gauge.sources Sample.config (.cache "l3" .storeMisses)) 1 0 ≤
      Sample.trace.cutSum Sample.config (Gauge.sources Sample.config (.cache "l3" .storeMisses)) 2 0 := by
    decide +kernel
  exact fell rose

namespace Sample

/-- The hits of loads in the filter of the data cache and behind it; all else stays as it is. -/
def crossedRaw (filtered behind : UInt64) : RawSnapshot :=
  { raw 1 0 1 1 with
    components := (raw 1 0 1 1).components.insert "l1d"
      (((raw.counters (.scalar 1)).insert "fhGETS" (.scalar filtered)).insert "hGETS" (.scalar behind)) }

/-- The hits in the filter fall by 5, and those behind it rise by 7. -/
def crossed : Trace where
  baseline := (crossedRaw 9 1).view config
  later := [(crossedRaw 4 8).view config]

theorem crossed_loaded :
    (Trace.ofRaw config [crossedRaw 9 1, crossedRaw 4 8]).outcome = .ok crossed :=
  Trace.ofRaw_of_checks (by decide +kernel) (by decide +kernel)

end Sample

/-- A counter of the data cache falls in an interval that counts, and the hits of loads are summed. -/
theorem aggregate_of_crossed_counters :
    (∃ raws, (Trace.ofRaw Sample.config raws).outcome = .ok Sample.crossed) ∧
    .cache "l1d" .loadHits ∈ Metric.readGauges (.cache "l1d" .loadHits) ∧
    .cache "l1d" .filterLoadHits ∈ Gauge.sources Sample.config (.cache "l1d" .loadHits) ∧
    Sample.crossed.Accepts .all 1 ∧ 0 < Gauge.instances Sample.config (.cache "l1d" .loadHits) ∧
    Sample.crossed.value Sample.config (.cache "l1d" .filterLoadHits) 1 0 <
      Sample.crossed.value Sample.config (.cache "l1d" .filterLoadHits) 0 0 ∧
    aggregate Sample.config Sample.crossed (.cache "l1d" .loadHits) .all = .ok (.array [2]) :=
  ⟨⟨_, Sample.crossed_loaded⟩, by decide, by decide, by decide, by decide, by decide +kernel, by rfl⟩

end IntervalStats
