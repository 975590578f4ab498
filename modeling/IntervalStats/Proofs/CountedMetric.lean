import IntervalStats.Proofs.ExactSum

/-!
# Metrics that count

Every metric but the times counts something: it is the rise of one gauge, or of the hits and the
misses of a cache together. `Trace.count` is what it counts over the accepted intervals, the exact
changes of its gauges added. `aggregate_counts` says that the sum over these intervals is that number,
unless a gauge falls in one of them or the number does not fit a signed word.
-/

namespace IntervalStats

/-! ## Gauges of a metric -/

/-- The gauges whose rises a metric adds up. Times have none. -/
def Metric.gauges : Metric → List Gauge
  | .uops .load => [.cache uopCache .loadHits, .cache uopCache .loadMisses]
  | .uops .store => [.cache uopCache .storeHits, .cache uopCache .storeMisses]
  | .cache name .loads => [.cache name .loadHits, .cache name .loadMisses]
  | .cache name .stores => [.cache name .storeHits, .cache name .storeMisses]
  | metric => metric.gauge?.toList

/-- The number of instances that a metric counts for. -/
def Metric.instances (config : Config) (metric : Metric) : Nat :=
  match metric.gauges with
  | gauge :: _ => gauge.instances config
  | [] => 0

/-- The sums over a list and over a set can be taken in either order. -/
theorem sum_map_sum {α ι : Type} (items : List α) (indices : Finset ι) (f : α → ι → Int) :
    (items.map fun item => ∑ i ∈ indices, f item i).sum =
      ∑ i ∈ indices, (items.map fun item => f item i).sum := by
  simpa using Multiset.sum_map_sum (m := items) (s := indices) (f := f)

namespace Trace

/-- A gauge falls in no accepted interval. -/
def Rising (trace : Trace) (config : Config) (modes : ModeSet) (gauge : Gauge) (k : Nat) : Prop :=
  ∀ i ∈ trace.acceptedIntervals modes,
    trace.reading config gauge (i - 1) k ≤ trace.reading config gauge i k

/-- The exact change of a gauge over all accepted intervals. -/
def totalRise (trace : Trace) (config : Config) (modes : ModeSet) (gauge : Gauge) (k : Nat) : Int :=
  ∑ i ∈ trace.acceptedIntervals modes,
    ((trace.reading config gauge i k : Int) - trace.reading config gauge (i - 1) k)

/-- What a metric counts over all accepted intervals. -/
def count (trace : Trace) (config : Config) (modes : ModeSet) (metric : Metric) (k : Nat) : Int :=
  (metric.gauges.map fun gauge => trace.totalRise config modes gauge k).sum

variable {trace : Trace} {config : Config} {modes : ModeSet} {metric : Metric} {k : Nat}

theorem Rising.totalRise_nonneg {gauge : Gauge} (rising : trace.Rising config modes gauge k) :
    0 ≤ trace.totalRise config modes gauge k := by
  apply Finset.sum_nonneg
  intro i accepted
  have step := rising i accepted
  omega

theorem count_nonneg (rising : ∀ gauge ∈ metric.gauges, trace.Rising config modes gauge k) :
    0 ≤ trace.count config modes metric k := by
  apply List.sum_nonneg
  intro rise member
  obtain ⟨gauge, listed, rfl⟩ := List.mem_map.1 member
  exact (rising gauge listed).totalRise_nonneg

theorem count_loads (name : String) :
    trace.count config modes (.cache name .loads) k =
      trace.count config modes (.cache name .loadHits) k +
        trace.count config modes (.cache name .loadMisses) k := by
  simp [count, Metric.gauges, Metric.gauge?]

theorem count_stores (name : String) :
    trace.count config modes (.cache name .stores) k =
      trace.count config modes (.cache name .storeHits) k +
        trace.count config modes (.cache name .storeMisses) k := by
  simp [count, Metric.gauges, Metric.gauge?]

end Trace

namespace Metric

variable {config : Config} {trace : Trace} {metric : Metric} {shape : Shape}

/-- A metric that counts is the rise of one gauge, or loads or stores: hits and misses of a cache. -/
theorem gauges_cases (counted : metric.gauges ≠ []) :
    (∃ gauge, metric.gauge? = some gauge ∧ metric.gauges = [gauge]) ∨
    ∃ name hits misses, metric.gauges = [.cache name hits, .cache name misses] ∧
      (∀ index, metric.delta config trace index = trace.cachePairDelta config name hits misses index) ∧
      metric.shape config trace = Metric.shape (.cache name .loads) config trace := by
  cases metric with
  | uops kind =>
    cases kind with
    | load => exact .inr ⟨_, _, _, rfl, fun _ => rfl, rfl⟩
    | store => exact .inr ⟨_, _, _, rfl, fun _ => rfl, rfl⟩
    | _ => exact .inl ⟨_, rfl, rfl⟩
  | cache name stat =>
    cases stat with
    | loads => exact .inr ⟨_, _, _, rfl, fun _ => rfl, rfl⟩
    | stores => exact .inr ⟨_, _, _, rfl, fun _ => rfl, rfl⟩
    | _ => exact .inl ⟨_, rfl, rfl⟩
  | elapsedTime => exact absurd rfl counted
  | idleElapsedTime => exact absurd rfl counted
  | _ => exact .inl ⟨_, rfl, rfl⟩

/-- All metrics but the times count. -/
theorem gauges_ne_nil (notElapsed : metric ≠ .elapsedTime) (notIdle : metric ≠ .idleElapsedTime) :
    metric.gauges ≠ [] := by
  cases metric with
  | uops kind => cases kind <;> exact List.cons_ne_nil _ _
  | cache name stat => cases stat <;> exact List.cons_ne_nil _ _
  | elapsedTime => exact absurd rfl notElapsed
  | idleElapsedTime => exact absurd rfl notIdle
  | _ => exact List.cons_ne_nil _ _

theorem exists_cache_of_shape {name : String} {stat : CacheStat}
    (shaped : Metric.shape (.cache name stat) config trace = .ok shape) :
    ∃ found, config.findCache name = .ok found ∧ shape = .array found.2.instances := by
  have looked : (config.findCache name >>= fun found => pure (.array found.2.instances)) = .ok shape :=
    shaped
  rw [bind_eq_ok_iff] at looked
  obtain ⟨found, located, same⟩ := looked
  exact ⟨found, located, (pure_eq_ok_iff.1 same).symm⟩

theorem gauges_cache_ne_nil (name : String) (stat : CacheStat) :
    Metric.gauges (.cache name stat) ≠ [] := by
  cases stat <;> exact List.cons_ne_nil _ _

theorem shape_cache {name : String} {found : Nat × Cache}
    (located : config.findCache name = .ok found) (stat : CacheStat) :
    Metric.shape (.cache name stat) config trace = .ok (.array found.2.instances) := by
  simp [Metric.shape, coreCounter?, located]

theorem instances_cache {name : String} {found : Nat × Cache}
    (located : config.findCache name = .ok found) (stat : CacheStat) :
    Metric.instances config (.cache name stat) = found.2.instances := by
  cases stat <;> simp [instances, gauges, gauge?, Gauge.instances, located]

/-- A metric has a shape only if its gauge can be read. -/
theorem available_of_shape {gauge : Gauge} (measured : metric.gauge? = some gauge)
    (shaped : metric.shape config trace = .ok shape) : gauge.Available config trace := by
  cases gauge with
  | core counter =>
    by_contra missing
    have unreported : trace.reports counter = false := by simpa [Gauge.Available] using missing
    have unshaped : ∃ e, metric.shape config trace = .error e := by
      cases metric with
      | uops kind =>
        cases kind <;> cases measured <;> simp only [Metric.shape, coreCounter?, unreported] <;>
          exact ⟨_, rfl⟩
      | cache name stat => cases stat <;> cases measured
      | _ => cases measured <;> simp only [Metric.shape, coreCounter?, unreported] <;> exact ⟨_, rfl⟩
    obtain ⟨e, failed⟩ := unshaped
    cases failed.symm.trans shaped
  | cache name sum =>
    cases metric with
    | uops kind => cases kind <;> cases measured
    | cache name stat =>
      obtain ⟨found, located, -⟩ := exists_cache_of_shape shaped
      cases stat <;> cases measured <;> exact ⟨found, located⟩
    | _ => cases measured

end Metric

/-! ## Sums -/

section Sums

variable {config : Config} {trace : Trace} {metric : Metric} {shape : Shape}

theorem Trace.cachePairDelta_measures (fits : trace.Fits config) {name : String}
    {found : Nat × Cache} (located : config.findCache name = .ok found) (hits misses : CacheSum)
    {modes : ModeSet} {i : Nat} (accepts : trace.Accepts modes i) :
    Measures (trace.cachePairDelta config name hits misses i) found.2.instances
      (fun k => trace.reading config (.cache name hits) (i - 1) k ≤
          trace.reading config (.cache name hits) i k ∧
        trace.reading config (.cache name misses) (i - 1) k ≤
          trace.reading config (.cache name misses) i k)
      fun k => ((trace.reading config (.cache name hits) i k : Int) -
          trace.reading config (.cache name hits) (i - 1) k) +
        ((trace.reading config (.cache name misses) i k : Int) -
          trace.reading config (.cache name misses) (i - 1) k) := by
  obtain ⟨j, rfl⟩ := Nat.exists_eq_add_of_le' accepts.1
  have inside : j + 1 < trace.snapshots.length := accepts.lt_size
  have first := List.getElem?_eq_getElem (Nat.lt_of_succ_lt inside)
  have second := List.getElem?_eq_getElem inside
  simp only [Nat.add_sub_cancel, Trace.reading, first, second]
  exact (cacheSumDelta_measures fits located hits first second).add
    (cacheSumDelta_measures fits located misses first second)

/-- A metric that counts has one number for each instance. -/
theorem Metric.shape_eq_instances (counted : metric.gauges ≠ [])
    (shaped : metric.shape config trace = .ok shape) : shape = .array (metric.instances config) := by
  rcases gauges_cases counted with ⟨gauge, measured, single⟩ | ⟨name, hits, misses, pair, -, sameShape⟩
  · have whole := shape_eq_of_gauge measured (available_of_shape measured shaped)
    rw [shaped] at whole
    simpa [instances, single] using whole
  · obtain ⟨found, located, rfl⟩ := exists_cache_of_shape (sameShape ▸ shaped)
    simp only [instances, pair, Gauge.instances, located]

/-- Over one interval a metric that counts changes by what its gauges change by. -/
theorem Metric.delta_counts (fits : trace.Fits config) (counted : metric.gauges ≠ [])
    (shaped : metric.shape config trace = .ok shape) {modes : ModeSet} {i : Nat}
    (accepts : trace.Accepts modes i) :
    Measures (metric.delta config trace i) (metric.instances config)
      (fun k => ∀ gauge ∈ metric.gauges,
        trace.reading config gauge (i - 1) k ≤ trace.reading config gauge i k)
      fun k => (metric.gauges.map fun gauge =>
        (trace.reading config gauge i k : Int) - trace.reading config gauge (i - 1) k).sum := by
  rcases gauges_cases counted with
    ⟨gauge, measured, single⟩ | ⟨name, hits, misses, pair, delta, sameShape⟩
  · obtain ⟨j, rfl⟩ := Nat.exists_eq_add_of_le' accepts.1
    have change := delta_measures fits measured (available_of_shape measured shaped) accepts.lt_size
    simp only [instances, single, List.forall_mem_singleton, List.map_singleton, List.sum_singleton]
    exact change
  · obtain ⟨found, located, rfl⟩ := exists_cache_of_shape (sameShape ▸ shaped)
    have change := Trace.cachePairDelta_measures fits located hits misses accepts
    rw [delta i]
    simp only [instances, pair, Gauge.instances, located]
    exact change.congr (fun k _ => by simp) fun k _ => by simp

/-- A metric that counts adds up the exact changes of its gauges. -/
theorem aggregate_counts (fits : trace.Fits config) (counted : metric.gauges ≠ [])
    (shaped : metric.shape config trace = .ok shape) (modes : ModeSet) :
    Measures (aggregate config trace metric modes) (metric.instances config)
      (fun k => ∀ gauge ∈ metric.gauges, trace.Rising config modes gauge k)
      (trace.count config modes metric) := by
  have shaped' := Metric.shape_eq_instances counted shaped ▸ shaped
  have sums := aggregate_measures_of_delta shaped' fun i (accepts : trace.Accepts modes i) =>
    Metric.delta_counts fits counted shaped accepts
  refine sums.congr (fun k _ => ?_) fun k _ => ?_
  · constructor
    · intro rising gauge member i accepted
      exact rising i accepted gauge member
    · intro rising i accepted gauge member
      exact rising gauge member i accepted
  · simp only [Trace.count, Trace.totalRise, sum_map_sum]

theorem shape_of_aggregate_eq_ok {modes : ModeSet} {q : Quantity}
    (summed : aggregate config trace metric modes = .ok q) :
    ∃ shape, metric.shape config trace = .ok shape := by
  rw [aggregate, bind_eq_ok_iff] at summed
  obtain ⟨shape, settled, -⟩ := summed
  exact ⟨shape, ofExcept_eq_ok_iff.1 settled⟩

/-- What a sum that was taken says about the gauges of its metric. -/
theorem counts_of_aggregate_eq_ok (fits : trace.Fits config) (counted : metric.gauges ≠ [])
    {modes : ModeSet} {q : Quantity} (summed : aggregate config trace metric modes = .ok q) :
    (∀ k < metric.instances config, ∀ gauge ∈ metric.gauges, trace.Rising config modes gauge k) ∧
      q.IsExact (metric.instances config) (trace.count config modes metric) := by
  obtain ⟨shape, shaped⟩ := shape_of_aggregate_eq_ok summed
  exact ((aggregate_counts fits counted shaped modes).eq_ok_iff q).1 summed

end Sums

end IntervalStats
