import IntervalStats.Proofs.FallingCounters

/-!
# Findings about counters

A sum that stops with an error about a counter tells the truth. The error names the counters of a gauge
that the metric is built from, and the snapshot that closes an accepted interval over which this gauge
falls, or rises by more than a signed word holds (`Failure.Honest`). It also names the earliest such
interval: up to there every change was found and every running total fitted (`Trace.SumsBefore`).

What a run did before it stopped comes from the loop alone (`stop_of_aggregate`), and what the error says
comes from the change over one interval (`Metric.delta_honest`). Loads and stores add the changes of two
gauges, and an addition never makes a finding about a counter.
-/

namespace IntervalStats

open Outcome (FailsWith)

/-! ## Names of gauges -/

/-- The name of a counter in a trace. -/
def Source.name : Source → String
  | .core counter => counter.name
  | .cache _ counter => counter.name

/-- The component whose counters a gauge adds. -/
def Gauge.component (config : Config) : Gauge → String
  | .core _ => config.coreGroup.name
  | .cache name _ => name

/-- The names of the counters that a gauge adds, with `+` between them. -/
def Gauge.label (config : Config) (gauge : Gauge) : String :=
  "+".intercalate ((gauge.sources config).map Source.name)

theorem Gauge.label_core (config : Config) (counter : CoreCounter) :
    Gauge.label config (.core counter) = counter.name := rfl

theorem Gauge.label_cache {config : Config} {name : String} {found : Nat × Cache}
    (located : config.findCache name = .ok found) (sum : CacheSum) :
    Gauge.label config (.cache name sum) = counterSumName (sum.counters found.2.id) := by
  simp only [label, sources, located, counterSumName, List.map_map, CacheSum.counters_eq_parts]
  rfl

/-! ## One interval -/

/-- The sum of the counters of a gauge falls over the interval that a snapshot closes. -/
def Trace.Falls (trace : Trace) (config : Config) (gauge : Gauge) (i k : Nat) : Prop :=
  trace.cutSum config (gauge.sources config) i k < trace.cutSum config (gauge.sources config) (i - 1) k

/-- The sum of the counters of a gauge rises by more than a signed word holds. -/
def Trace.Leaps (trace : Trace) (config : Config) (gauge : Gauge) (i k : Nat) : Prop :=
  2 ^ 63 - 1 < (trace.cutSum config (gauge.sources config) i k : Int) -
    trace.cutSum config (gauge.sources config) (i - 1) k

/-- If the failure is a finding about a counter, then it is about the interval that a snapshot closes, and
what it says is true of the gauge that it names, which is one of those given. -/
def Failure.Honest (trace : Trace) (config : Config) (gauges : List Gauge) (i : Nat) : Failure → Prop
  | .error (.counterDecreased component counter index) => index = i ∧
    ∃ gauge ∈ gauges, component = gauge.component config ∧ counter = gauge.label config ∧
      ∃ k < gauge.instances config, trace.Falls config gauge i k
  | .error (.counterOverflowed component counter index) => index = i ∧
    ∃ gauge ∈ gauges, component = gauge.component config ∧ counter = gauge.label config ∧
      ∃ k < gauge.instances config, trace.Leaps config gauge i k
  | _ => True

theorem rise_eq_error_cases {component counter : String} {index : Nat} {before after : UInt64}
    {e : Failure} (failed : rise component counter index before after = .error e) :
    e = .error (.counterDecreased component counter index) ∧ after.toNat < before.toNat ∨
      e = .error (.counterOverflowed component counter index) ∧
        2 ^ 63 - 1 < (after.toNat : Int) - before.toNat := by
  unfold rise at failed
  split at failed
  · rename_i fell
    cases failed
    exact .inl ⟨rfl, UInt64.lt_iff_toNat_lt.1 fell⟩
  · rename_i rose
    rw [UInt64.lt_iff_toNat_lt, Nat.not_lt] at rose
    split at failed
    · cases failed
    · rename_i large
      cases failed
      rw [UInt64.toNat_sub_of_le _ _ (UInt64.le_iff_toNat_le.2 rose)] at large
      refine .inr ⟨rfl, ?_⟩
      omega

/-- An instance whose counter fell or rose too far decides the error. -/
theorem exists_of_rises_eq_error {component counter : String} {index n : Nat} {before after : List UInt64}
    {b a : Nat → Nat} (earlier : ExactCounters before n b) (later : ExactCounters after n a) {e : Failure}
    (failed : rises component counter index before after = .error e) :
    ∃ k < n, e = .error (.counterDecreased component counter index) ∧ a k < b k ∨
      e = .error (.counterOverflowed component counter index) ∧ 2 ^ 63 - 1 < (a k : Int) - b k := by
  rw [rises, map_eq_error_iff] at failed
  have lengths : before.length = after.length := earlier.length_eq.trans later.length_eq.symm
  obtain ⟨k, x, y, presentX, presentY, stopped⟩ := exists_of_joinExact_eq_error lengths failed
  refine ⟨k, earlier.length_eq ▸ (List.getElem?_eq_some_iff.1 presentX).1, ?_⟩
  rw [← earlier.toNat_getElem? k x presentX, ← later.toNat_getElem? k y presentY]
  exact rise_eq_error_cases stopped

section Intervals

variable {config : Config} {trace : Trace} {gauges : List Gauge} {gauge : Gauge} {index : Nat}
  {before after : Snapshot}

/-- The rise of a gauge that is given fails honestly. -/
theorem rises_honest {b a : List UInt64} (listed : gauge ∈ gauges)
    (earlier : ExactCounters b (gauge.instances config) (trace.reading config gauge index))
    (later : ExactCounters a (gauge.instances config) (trace.reading config gauge (index + 1))) :
    FailsWith (Failure.Honest trace config gauges (index + 1))
      (rises (gauge.component config) (gauge.label config) (index + 1) b a) := by
  intro e failed
  obtain ⟨k, inside, ⟨rfl, falls⟩ | ⟨rfl, leaps⟩⟩ := exists_of_rises_eq_error earlier later failed
  · rw [Trace.reading_eq_cutSum, Trace.reading_eq_cutSum] at falls
    exact ⟨rfl, gauge, listed, rfl, rfl, k, inside, falls⟩
  · rw [Trace.reading_eq_cutSum, Trace.reading_eq_cutSum] at leaps
    exact ⟨rfl, gauge, listed, rfl, rfl, k, inside, leaps⟩

theorem Trace.coreDelta_honest (fits : trace.Fits config) {counter : CoreCounter}
    (listed : .core counter ∈ gauges) (reported : trace.reports counter = true)
    (first : trace.snapshots[index]? = some before)
    (second : trace.snapshots[index + 1]? = some after) :
    FailsWith (Failure.Honest trace config gauges (index + 1))
      (trace.coreDelta config counter (index + 1)) := by
  obtain ⟨b, a, same, exactB, exactA⟩ := coreDelta_eq_rises fits reported first second
  rw [same, ← Gauge.label_core config counter]
  apply rises_honest listed
  · rw [reading_eq first]
    exact exactB
  · rw [reading_eq second]
    exact exactA

theorem Trace.cacheSumDelta_honest (fits : trace.Fits config) {name : String} {found : Nat × Cache}
    (located : config.findCache name = .ok found) {sum : CacheSum} (listed : .cache name sum ∈ gauges)
    (first : trace.snapshots[index]? = some before)
    (second : trace.snapshots[index + 1]? = some after) :
    FailsWith (Failure.Honest trace config gauges (index + 1))
      (trace.cacheSumDelta config name sum (index + 1)) := by
  obtain ⟨b, a, same, exactB, exactA⟩ := cacheSumDelta_eq_rises fits located sum first second
  have instances : Gauge.instances config (.cache name sum) = found.2.instances := by
    simp only [Gauge.instances, located]
  rw [same, ← Gauge.label_cache located sum]
  apply rises_honest listed
  · rw [instances, reading_eq first]
    exact exactB
  · rw [instances, reading_eq second]
    exact exactA

end Intervals

/-- An addition makes no finding about a counter. -/
theorem Quantity.add_honest {trace : Trace} {config : Config} {gauges : List Gauge} {i : Nat}
    (a b : Quantity) : FailsWith (Failure.Honest trace config gauges i) (a.add b) :=
  failsWith_combine (fun _ _ => failsWith_wordOf trivial _) fun _ => trivial

/-- The change of a metric that counts fails honestly. -/
theorem Metric.delta_honest {config : Config} {trace : Trace} {metric : Metric} {shape : Shape}
    {modes : ModeSet} {i : Nat} (fits : trace.Fits config) (counted : metric.gauges ≠ [])
    (shaped : metric.shape config trace = .ok shape) (accepts : trace.Accepts modes i) :
    FailsWith (Failure.Honest trace config metric.gauges i) (metric.delta config trace i) := by
  obtain ⟨j, before, after, rfl, first, last⟩ := accepts.exists_ends
  rcases gauges_cases counted with
    ⟨gauge, measured, single⟩ | ⟨name, hits, misses, pair, delta, sameShape⟩
  · have available := available_of_shape measured shaped
    have listed : gauge ∈ metric.gauges := single ▸ List.mem_singleton_self gauge
    rw [delta_eq_of_gauge measured]
    cases gauge with
    | core counter => exact Trace.coreDelta_honest fits listed available first last
    | cache name sum =>
      obtain ⟨found, located⟩ := available
      exact Trace.cacheSumDelta_honest fits located listed first last
  · obtain ⟨found, located, -⟩ := exists_cache_of_shape (sameShape ▸ shaped)
    rw [delta]
    refine (Trace.cacheSumDelta_honest fits located ?_ first last).bind fun a => ?_
    · simp [pair]
    · refine (Trace.cacheSumDelta_honest fits located ?_ first last).bind fun b => ?_
      · simp [pair]
      · exact Quantity.add_honest a b

/-! ## Before the sum stops -/

namespace Trace

/-- What a metric has changed by over the accepted intervals up to the one that a snapshot closes. -/
def runningTotal (trace : Trace) (config : Config) (metric : Metric) (modes : ModeSet) (j k : Nat) : Int :=
  ∑ i ∈ (trace.acceptedIntervals modes).filter (· ≤ j), Outcome.exact (metric.delta config trace i) k

/-- Every accepted interval before a snapshot has a change, and all running totals up to there fit. -/
def SumsBefore (trace : Trace) (config : Config) (metric : Metric) (modes : ModeSet) (i : Nat) : Prop :=
  ∀ j < i, trace.Accepts modes j →
    (∃ change, metric.delta config trace j = .ok change) ∧
      ∀ k, FitsWord (trace.runningTotal config metric modes j k)

variable {trace : Trace} {config : Config} {metric : Metric} {modes : ModeSet}

/-- Accepted intervals come in order, so those that the loop went through before one are the earlier ones. -/
theorem mem_before_iff {before after : List Nat} {i j : Nat}
    (split : trace.accepted modes = before ++ i :: after) : j ∈ before ↔ trace.Accepts modes j ∧ j < i := by
  have sorted : (before ++ i :: after).Pairwise (· < ·) := split ▸ pairwise_accepted
  obtain ⟨-, fromHere, cross⟩ := List.pairwise_append.1 sorted
  rw [← mem_accepted, split, List.mem_append, List.mem_cons]
  constructor
  · intro passed
    exact ⟨.inl passed, cross j passed i (List.mem_cons_self ..)⟩
  · rintro ⟨passed | rfl | later, earlier⟩
    · exact passed
    · exact absurd earlier (Nat.lt_irrefl j)
    · exact absurd earlier (Nat.lt_asymm ((List.pairwise_cons.1 fromHere).1 j later))

/-- The accepted intervals up to one of them are those that the loop has gone through by then. -/
theorem sum_accepted_upTo {before after : List Nat} {j : Nat}
    (split : trace.accepted modes = before ++ j :: after) (f : Nat → Int) :
    ∑ i ∈ (trace.acceptedIntervals modes).filter (· ≤ j), f i = ((before ++ [j]).map f).sum := by
  have accepts : trace.Accepts modes j := by
    rw [← mem_accepted, split]
    simp
  have same : (trace.acceptedIntervals modes).filter (· ≤ j) = (before ++ [j]).toFinset := by
    ext i
    rw [Finset.mem_filter, mem_acceptedIntervals, List.mem_toFinset, List.mem_append,
      List.mem_singleton, mem_before_iff split, Nat.le_iff_lt_or_eq, and_or_left]
    refine or_congr_right (and_iff_right_of_imp ?_)
    rintro rfl
    exact accepts
  have distinct : (before ++ [j]).Nodup := by
    have whole : ((before ++ [j]) ++ after).Nodup := by
      rw [List.append_assoc, List.singleton_append, ← split]
      exact nodup_accepted
    exact whole.of_append_left
  rw [same, List.sum_toFinset f distinct]

/-- A loop that has reached an interval has summed all accepted ones before it. -/
theorem sumsBefore_of_run {shape : Shape} {before after : List Nat} {i : Nat} {sum : Quantity}
    (split : trace.accepted modes = before ++ i :: after)
    (run : before.foldlM (fun sum index => do let change ← metric.delta config trace index; sum.add change)
      (Quantity.zero shape) = .ok sum) : trace.SumsBefore config metric modes i := by
  intro j earlier accepts
  have passed : j ∈ before := (mem_before_iff split).2 ⟨accepts, earlier⟩
  constructor
  · obtain ⟨total, next, step⟩ := exists_step_of_foldlM run passed
    obtain ⟨change, changed, -⟩ := bind_eq_ok_iff.1 step
    exact ⟨change, changed⟩
  · -- The total after this interval is a word, and it is the exact sum up to here.
    intro k
    obtain ⟨first, rest, rfl⟩ := List.append_of_mem passed
    have regroup : first ++ j :: rest = (first ++ [j]) ++ rest := by simp
    rw [regroup, List.foldlM_append, bind_eq_ok_iff] at run
    obtain ⟨total, reached, -⟩ := run
    obtain ⟨-, sums⟩ := foldlM_add_exact reached
    have split' : trace.accepted modes = first ++ j :: (rest ++ i :: after) := by
      rw [split, List.append_assoc, List.cons_append]
    rw [runningTotal, sum_accepted_upTo split']
    have exact := sums k
    rw [Quantity.exact_zero, Int.zero_add] at exact
    rw [← exact]
    exact total.fitsWord_exact k

end Trace

section Sums

variable {config : Config} {trace : Trace} {metric : Metric} {modes : ModeSet}

/-- A sum that fails stops at an accepted interval, with all earlier ones summed: there the change is not
found, or it cannot be added. -/
theorem stop_of_aggregate {shape : Shape} {e : Failure} (shaped : metric.shape config trace = .ok shape)
    (failed : aggregate config trace metric modes = .error e) :
    ∃ i, trace.Accepts modes i ∧ trace.SumsBefore config metric modes i ∧
      (metric.delta config trace i = .error e ∨ ∃ total change : Quantity, total.add change = .error e) := by
  rw [aggregate, shaped] at failed
  obtain ⟨before, i, after, total, split, run, step⟩ := foldlM_eq_error_iff.1 failed
  have accepts : trace.Accepts modes i := by
    rw [← Trace.mem_accepted, split]
    simp
  refine ⟨i, accepts, Trace.sumsBefore_of_run split run, ?_⟩
  rcases bind_eq_error_iff.1 step with notFound | ⟨change, -, notAdded⟩
  · exact .inl notFound
  · exact .inr ⟨total, change, notAdded⟩

/-- Whatever a sum that stops because of values says about a counter is true, and nothing went wrong
before. -/
theorem honest_of_aggregate {e : Failure} (fits : trace.Fits config) (counted : metric.gauges ≠ [])
    (kind : e.OfValues) (failed : aggregate config trace metric modes = .error e) :
    ∃ i, trace.Accepts modes i ∧ trace.SumsBefore config metric modes i ∧
      e.Honest trace config metric.gauges i := by
  cases shaped : metric.shape config trace with
  | error finding =>
    -- A metric without a shape lacks its counter or its cache, which no value can mend.
    rw [aggregate, shaped] at failed
    cases failed
    rcases Metric.shape_eq_error_iff.1 shaped with ⟨_, -, -, rfl⟩ | ⟨_, -, -, rfl⟩ <;> cases kind
  | ok shape =>
    obtain ⟨i, accepts, sums, notFound | ⟨total, change, notAdded⟩⟩ := stop_of_aggregate shaped failed
    · exact ⟨i, accepts, sums, Metric.delta_honest fits counted shaped accepts e notFound⟩
    · exact ⟨i, accepts, sums, total.add_honest change e notAdded⟩

/-- An error that says that a counter fell or overflowed at a snapshot is right and the earliest one. The
snapshot closes an accepted interval; the error names a component and a counter of the metric, or several
counters with `+` between them, and their sum, cut off at the greatest word, falls or rises by more than
the greatest signed word for some instance. At every accepted interval before it the change of the metric
is found and the running totals fit. -/
theorem aggregate_counter_findings {raws : List RawSnapshot}
    (loaded : (Trace.ofRaw config raws).outcome = .ok trace) (notElapsed : metric ≠ .elapsedTime)
    (notIdle : metric ≠ .idleElapsedTime) (component counter : String) (i : Nat) :
    (aggregate config trace metric modes = fail (.counterDecreased component counter i) →
      trace.Accepts modes i ∧ trace.SumsBefore config metric modes i ∧
      ∃ gauge ∈ metric.gauges, component = gauge.component config ∧ counter = gauge.label config ∧
        ∃ k < gauge.instances config, trace.Falls config gauge i k) ∧
    (aggregate config trace metric modes = fail (.counterOverflowed component counter i) →
      trace.Accepts modes i ∧ trace.SumsBefore config metric modes i ∧
      ∃ gauge ∈ metric.gauges, component = gauge.component config ∧ counter = gauge.label config ∧
        ∃ k < gauge.instances config, trace.Leaps config gauge i k) := by
  have fits := Trace.fits_of_ofRaw loaded
  have counted := Metric.gauges_ne_nil notElapsed notIdle
  constructor
  · intro failed
    obtain ⟨_, accepts, sums, rfl, falls⟩ := honest_of_aggregate fits counted (.decreased ..) failed
    exact ⟨accepts, sums, falls⟩
  · intro failed
    obtain ⟨_, accepts, sums, rfl, leaps⟩ := honest_of_aggregate fits counted (.overflowed ..) failed
    exact ⟨accepts, sums, leaps⟩

end Sums

namespace Sample

/-- The hits in the filter of the data cache and behind it rise by half the range of a word together. -/
def leaping : Trace where
  baseline := (crossedRaw 9 1).view config
  later := [(crossedRaw 4 8).view config, (crossedRaw 0x8000000000000000 12).view config]

theorem leaping_loaded :
    (Trace.ofRaw config [crossedRaw 9 1, crossedRaw 4 8, crossedRaw 0x8000000000000000 12]).outcome =
      .ok leaping :=
  Trace.ofRaw_of_checks (by decide +kernel) (by decide +kernel)

end Sample

/-- Both counters of the stores that miss the last level fall in the second interval of one sample. In
another the loads of the data cache stop at its hits, and the error names both counters of these. -/
theorem aggregate_counter_findings_sample :
    (aggregate Sample.config Sample.trace (.cache "l3" .storeMisses) .all =
        fail (.counterDecreased "l3" "mGETXIM+mGETXSM" 2) ∧
      Sample.trace.SumsBefore Sample.config (.cache "l3" .storeMisses) .all 2) ∧
    aggregate Sample.config Sample.leaping (.cache "l1d" .loads) .all =
        fail (.counterOverflowed "l1d" "fhGETS+hGETS" 2) ∧
      ∃ k, Sample.leaping.Leaps Sample.config (.cache "l1d" .loadHits) 2 k := by
  have fell : aggregate Sample.config Sample.trace (.cache "l3" .storeMisses) .all =
      fail (.counterDecreased "l3" "mGETXIM+mGETXSM" 2) := by rfl
  have leapt : aggregate Sample.config Sample.leaping (.cache "l1d" .loads) .all =
      fail (.counterOverflowed "l1d" "fhGETS+hGETS" 2) := by rfl
  obtain ⟨-, sums, -⟩ :=
    (aggregate_counter_findings Sample.loaded (by decide) (by decide) _ _ _).1 fell
  obtain ⟨-, -, gauge, listed, -, named, k, -, leaps⟩ :=
    (aggregate_counter_findings Sample.leaping_loaded (by decide) (by decide) _ _ _).2 leapt
  refine ⟨⟨fell, sums⟩, leapt, k, ?_⟩
  -- The label tells the hits from the misses.
  have either : gauge = .cache "l1d" .loadHits ∨ gauge = .cache "l1d" .loadMisses := by
    simpa [Metric.gauges] using listed
  rcases either with rfl | rfl
  · exact leaps
  · exact absurd named (by decide)

end IntervalStats
