import Mathlib.Algebra.BigOperators.Intervals
import IntervalStats.Aggregate
import IntervalStats.Proofs.Gauge

/-!
# Exact sums over intervals

Changes are checked and added one interval and one instance at a time. `Measures.foldlM` shows that
these local checks are the global one: as no change is negative, no running total exceeds the whole
sum, so the loop succeeds exactly when the whole sum fits. `aggregate_measures` states this for
every metric that is the rise of a gauge.
-/

namespace IntervalStats

/-! ## Accepted intervals -/

/-- A mode counts if all do or if it is one of those given. -/
def ModeSet.Counts : ModeSet → Int64 → Prop
  | all, _ => True
  | only modes, mode => mode ∈ modes.values

instance (set : ModeSet) (mode : Int64) : Decidable (set.Counts mode) :=
  match set with
  | .all => inferInstanceAs (Decidable True)
  | .only modes => inferInstanceAs (Decidable (mode ∈ modes.values))

theorem ModeSet.contains_eq_true_iff {set : ModeSet} {mode : Int64} :
    set.contains mode = true ↔ set.Counts mode := by
  cases set with
  | all => simp [contains, Counts]
  | only modes => simp [contains, Counts]

namespace Trace

variable {trace : Trace} {modes : ModeSet} {i : Nat}

/-- The snapshot at an index closes an interval whose mode counts. -/
def Accepts (trace : Trace) (modes : ModeSet) (i : Nat) : Prop :=
  1 ≤ i ∧ ∃ s ∈ trace.snapshots[i]?, modes.Counts s.mode

instance : Decidable (trace.Accepts modes i) :=
  inferInstanceAs (Decidable (_ ∧ _))

/-- The indices of the snapshots that close the intervals whose mode counts. -/
def acceptedIntervals (trace : Trace) (modes : ModeSet) : Finset Nat :=
  (Finset.Ico 1 trace.size).filter (trace.Accepts modes)

theorem Accepts.lt_size (accepts : trace.Accepts modes i) : i < trace.size := by
  obtain ⟨s, present, -⟩ := accepts.2
  exact (List.getElem?_eq_some_iff.1 present).1

theorem accepts_iff :
    trace.Accepts modes i ↔
      ∃ j s, j + 1 = i ∧ trace.later[j]? = some s ∧ modes.contains s.mode = true := by
  simp only [Accepts, ModeSet.contains_eq_true_iff]
  constructor
  · rintro ⟨positive, s, present, counts⟩
    obtain ⟨j, rfl⟩ := Nat.exists_eq_add_of_le' positive
    exact ⟨j, s, rfl, present, counts⟩
  · rintro ⟨j, s, rfl, present, counts⟩
    exact ⟨Nat.le_add_left 1 j, s, present, counts⟩

theorem mem_acceptedIntervals : i ∈ trace.acceptedIntervals modes ↔ trace.Accepts modes i := by
  rw [acceptedIntervals, Finset.mem_filter, Finset.mem_Ico]
  constructor
  · intro member
    exact member.2
  · intro accepts
    exact ⟨⟨accepts.1, accepts.lt_size⟩, accepts⟩

theorem mem_accepted : i ∈ trace.accepted modes ↔ trace.Accepts modes i := by
  simp only [accepted, List.mem_map, List.mem_filter, Prod.exists, exists_eq_right,
    List.mem_zipIdx_iff_le_and_getElem?_sub, accepts_iff]
  constructor
  · rintro ⟨s, ⟨positive, present⟩, counts⟩
    obtain ⟨j, rfl⟩ := Nat.exists_eq_add_of_le' positive
    exact ⟨j, s, rfl, present, counts⟩
  · rintro ⟨j, s, rfl, present, counts⟩
    exact ⟨s, ⟨Nat.le_add_left 1 j, present⟩, counts⟩

/-- The accepted intervals are gone through in the order of the trace. -/
theorem pairwise_accepted : (trace.accepted modes).Pairwise (· < ·) := by
  have indices : ((trace.later.zipIdx 1).map (·.2)).Pairwise (· < ·) := by
    rw [List.zipIdx_map_snd]
    exact List.pairwise_lt_range'
  exact indices.sublist (List.filter_sublist.map _)

theorem nodup_accepted : (trace.accepted modes).Nodup :=
  pairwise_accepted.imp Nat.ne_of_lt

theorem sum_accepted (f : Nat → Int) :
    ((trace.accepted modes).map f).sum = ∑ i ∈ trace.acceptedIntervals modes, f i := by
  have same : (trace.accepted modes).toFinset = trace.acceptedIntervals modes := by
    ext i
    rw [List.mem_toFinset, mem_accepted, mem_acceptedIntervals]
  rw [← same, List.sum_toFinset f nodup_accepted]

end Trace

/-! ## The loop -/

/-- Adding changes one after another to a running total. The induction is on the changes that are
left, with the total so far as a computation of its own: each step is an addition. -/
theorem Measures.foldlM {delta : Nat → Outcome Quantity} {n : Nat} {P : Nat → Nat → Prop}
    {exact : Nat → Nat → Int} {indices : List Nat}
    (steps : ∀ i ∈ indices, Measures (delta i) n (P i) (exact i)) {x : Outcome Quantity}
    {Q : Nat → Prop} {f : Nat → Int} (start : Measures x n Q f) :
    Measures
      (x >>= fun sum => indices.foldlM (fun sum i => do let change ← delta i; sum.add change) sum) n
      (fun k => Q k ∧ ∀ i ∈ indices, P i k) fun k => f k + (indices.map fun i => exact i k).sum := by
  induction indices generalizing x Q f with
  | nil =>
    simp only [List.foldlM_nil, bind_pure]
    exact start.congr (fun k _ => by simp) fun k _ => by simp
  | cons i indices ih =>
    obtain ⟨step, rest⟩ := List.forall_mem_cons.1 steps
    have added := ih rest (start.add step)
    simp only [List.foldlM_cons, ← bind_assoc] at added ⊢
    refine added.congr (fun k _ => ?_) fun k _ => ?_
    · simp only [List.forall_mem_cons, and_assoc]
    · simp only [List.map_cons, List.sum_cons, Int.add_assoc]

theorem Trace.sumIntervals_measures {trace : Trace} {modes : ModeSet} {delta : Nat → Outcome Quantity}
    {n : Nat} {P : Nat → Nat → Prop} {exact : Nat → Nat → Int}
    (steps : ∀ i, trace.Accepts modes i → Measures (delta i) n (P i) (exact i)) :
    Measures (trace.sumIntervals modes (.array n) delta) n
      (fun k => ∀ i ∈ trace.acceptedIntervals modes, P i k)
      fun k => ∑ i ∈ trace.acceptedIntervals modes, exact i k := by
  have run := (Measures.zero n).foldlM fun i member => steps i (mem_accepted.1 member)
  refine Measures.congr run (fun k _ => ?_) fun k _ => ?_
  · simp only [true_and, mem_accepted, mem_acceptedIntervals]
  · rw [Int.zero_add, sum_accepted]

/-- A metric whose changes are measured is summed exactly. -/
theorem aggregate_measures_of_delta {config : Config} {trace : Trace} {metric : Metric}
    {modes : ModeSet} {n : Nat} {P : Nat → Nat → Prop} {exact : Nat → Nat → Int}
    (shape : metric.shape config trace = .ok (.array n))
    (steps : ∀ i, trace.Accepts modes i → Measures (metric.delta config trace i) n (P i) (exact i)) :
    Measures (aggregate config trace metric modes) n
      (fun k => ∀ i ∈ trace.acceptedIntervals modes, P i k)
      fun k => ∑ i ∈ trace.acceptedIntervals modes, exact i k := by
  unfold aggregate
  rw [shape]
  exact Trace.sumIntervals_measures steps

/-! ## Metrics that are the rise of a gauge -/

section Gauge

variable {config : Config} {trace : Trace} {metric : Metric} {gauge : Gauge}

theorem aggregate_measures (fits : trace.Fits config) (measured : metric.gauge? = some gauge)
    (available : gauge.Available config trace) (modes : ModeSet) :
    Measures (aggregate config trace metric modes) (gauge.instances config)
      (fun k => ∀ i ∈ trace.acceptedIntervals modes,
        trace.reading config gauge (i - 1) k ≤ trace.reading config gauge i k)
      fun k => ∑ i ∈ trace.acceptedIntervals modes,
        ((trace.reading config gauge i k : Int) - trace.reading config gauge (i - 1) k) := by
  apply aggregate_measures_of_delta (metric.shape_eq_of_gauge measured available)
  intro i accepts
  obtain ⟨j, rfl⟩ := Nat.exists_eq_add_of_le' accepts.1
  exact Metric.delta_measures fits measured available accepts.lt_size

end Gauge

/-! ## Counters by the names they are stored under -/

/-- The value of a counter of one instance in a stored snapshot, 0 if there is none. -/
def RawSnapshot.value (s : RawSnapshot) (component counter : String) (k : Nat) : Nat :=
  (((s.values? component counter).getD []).getD k 0).toNat

/-- What counters of a component show together for one instance at the stored snapshot at an index. Their
sum stays at the greatest unsigned word. -/
def cumulative (raws : List RawSnapshot) (component : String) (counters : List String) (index k : Nat) :
    Nat :=
  match raws[index]? with
  | some raw => min (counters.map fun counter => raw.value component counter k).sum (2 ^ 64 - 1)
  | none => 0

/-- The metrics that are the rise of a counter of the cores. -/
def coreRises : List (Metric × String) :=
  [(.instructions, "instrs"), (.cycles, "cycles"), (.mispredictedBranches, "mispredBranches"),
    (.correctBranches, "predBranches"), (.uops .branch, "branchUops"),
    (.uops .fpAddSub, "fpAddSubUops"), (.uops .fpMulDiv, "fpMulDivUops"), (.uops .total, "uops")]

/-- The counts of a cache of a level that are the rise of a sum of its counters. -/
def cacheRises (level : Nat) : List (CacheStat × List String) :=
  [(.loadHits, if level = 1 then ["fhGETS", "hGETS"] else ["hGETS"]), (.loadMisses, ["mGETS"]),
    (.storeHits, if level = 1 then ["fhGETX", "hGETX"] else ["hGETX"]),
    (.storeMisses, ["mGETXIM", "mGETXSM"])]

/-- The metric is the rise of the sum of some counters of a component that has so many instances. The
counter of the cores is reported, or the cache is configured. -/
inductive Metric.RiseOf (config : Config) (raws : List RawSnapshot) :
    Metric → String → List String → Nat → Prop where
  | core {metric : Metric} {counter : String} (listed : (metric, counter) ∈ coreRises)
      (reported : ∃ raw ∈ raws, (raw.values? config.coreGroup.name counter).isSome = true) :
      RiseOf config raws metric config.coreGroup.name [counter] config.cores
  | cache {cache : Cache} {stat : CacheStat} {counters : List String} (configured : cache ∈ config.caches)
      (listed : (stat, counters) ∈ cacheRises cache.id.level) :
      RiseOf config raws (.cache cache.id.name stat) cache.id.name counters cache.instances

section Stored

variable {config : Config} {trace : Trace} {raws : List RawSnapshot}

theorem exists_gauge_of_mem_coreRises {metric : Metric} {counter : String}
    (listed : (metric, counter) ∈ coreRises) :
    ∃ c : CoreCounter, metric.gauge? = some (.core c) ∧ counter = c.name := by
  simp only [coreRises, List.mem_cons, Prod.mk.injEq, List.not_mem_nil, or_false] at listed
  rcases listed with ⟨rfl, rfl⟩ | ⟨rfl, rfl⟩ | ⟨rfl, rfl⟩ | ⟨rfl, rfl⟩ | ⟨rfl, rfl⟩ | ⟨rfl, rfl⟩ |
    ⟨rfl, rfl⟩ | ⟨rfl, rfl⟩ <;> exact ⟨_, rfl, rfl⟩

/-- The counters of a sum are called for on the level of the cache. -/
theorem exists_gauge_of_mem_cacheRises {id : CacheId} {stat : CacheStat} {counters : List String}
    (listed : (stat, counters) ∈ cacheRises id.level) :
    ∃ sum : CacheSum, (Metric.cache id.name stat).gauge? = some (.cache id.name sum) ∧
      counters = (sum.parts id.level).map CacheCounter.name ∧
      ∀ c ∈ sum.parts id.level, id.lacks c = false := by
  simp only [cacheRises, List.mem_cons, Prod.mk.injEq, List.not_mem_nil, or_false] at listed
  rcases listed with ⟨rfl, rfl⟩ | ⟨rfl, rfl⟩ | ⟨rfl, rfl⟩ | ⟨rfl, rfl⟩ <;> refine ⟨_, rfl, ?_, ?_⟩ <;>
    by_cases first : id.level = 1 <;>
    simp [CacheSum.parts, first, CacheCounter.name, CacheId.lacks, CacheId.isFirstLevel,
      CacheCounter.isFilter]

theorem reading_core (views : trace.snapshots = raws.map (·.view config)) (c : CoreCounter) (i k : Nat) :
    trace.reading config (.core c) i k = cumulative raws config.coreGroup.name [c.name] i k := by
  unfold Trace.reading cumulative
  rw [views, List.getElem?_map]
  cases raws[i]? with
  | none => rfl
  | some raw =>
    simp only [Option.map_some, Gauge.reading, Snapshot.coreValue, RawSnapshot.core_view,
      List.map_singleton, List.sum_singleton]
    exact (Nat.min_eq_left (Nat.le_pred_of_lt (UInt64.toNat_lt _))).symm

theorem reading_cache (views : trace.snapshots = raws.map (·.view config)) {position : Nat} {cache : Cache}
    (present : config.caches[position]? = some cache) {sum : CacheSum}
    (called : ∀ c ∈ sum.parts cache.id.level, cache.id.lacks c = false) (i k : Nat) :
    trace.reading config (.cache cache.id.name sum) i k =
      cumulative raws cache.id.name ((sum.parts cache.id.level).map CacheCounter.name) i k := by
  unfold Trace.reading cumulative
  rw [views, List.getElem?_map]
  cases raws[i]? with
  | none => rfl
  | some raw =>
    have each : ∀ c ∈ sum.parts cache.id.level,
        (raw.view config).cacheValue position c k = raw.value cache.id.name c.name k := by
      intro c listed
      simp [Snapshot.cacheValue, RawSnapshot.cache_view present, Except.toOption, RawSnapshot.cacheValues,
        called c listed, RawSnapshot.value]
    simp only [Option.map_some, Gauge.reading, Config.findCache_name present, List.map_map]
    rw [List.map_congr_left each]
    rfl

/-- A metric that is the rise of stored counters has a gauge that shows them. -/
theorem Metric.RiseOf.exists_gauge {metric : Metric} {component : String} {counters : List String} {n : Nat}
    (rise : metric.RiseOf config raws component counters n)
    (loaded : (Trace.ofRaw config raws).outcome = .ok trace) :
    ∃ gauge, metric.gauge? = some gauge ∧ gauge.Available config trace ∧ gauge.instances config = n ∧
      trace.reading config gauge = cumulative raws component counters := by
  obtain ⟨views, -, uniform⟩ := Trace.ofRaw_eq_ok_iff.1 loaded
  cases rise with
  | core listed reported =>
    obtain ⟨c, measured, rfl⟩ := exists_gauge_of_mem_coreRises listed
    obtain ⟨raw, given, stored⟩ := reported
    refine ⟨.core c, measured, ?_, rfl, funext₂ (reading_core views c)⟩
    have member : raw.view config ∈ trace.snapshots := views ▸ List.mem_map_of_mem given
    rw [Gauge.Available, ← uniform _ member c, RawSnapshot.core_view, stored]
  | cache configured listed =>
    obtain ⟨sum, measured, rfl, called⟩ := exists_gauge_of_mem_cacheRises listed
    obtain ⟨position, present⟩ := List.mem_iff_getElem?.1 configured
    have located := Config.findCache_name present
    refine ⟨_, measured, ⟨_, located⟩, ?_, funext₂ (reading_cache views present called)⟩
    simp only [Gauge.instances, located]

/-- Summing the rise of stored counters over the accepted intervals of a loaded trace succeeds exactly if
they fall in none of them and no instance's exact sum exceeds the greatest signed word. The result is then
those exact sums. -/
theorem aggregate_exact {metric : Metric} {component : String} {counters : List String} {n : Nat}
    (loaded : (Trace.ofRaw config raws).outcome = .ok trace)
    (rise : metric.RiseOf config raws component counters n) (modes : ModeSet) :
    ((∃ q, aggregate config trace metric modes = .ok q) ↔
      (∀ i ∈ trace.acceptedIntervals modes, ∀ k < n,
        cumulative raws component counters (i - 1) k ≤ cumulative raws component counters i k) ∧
      ∀ k < n, ∑ i ∈ trace.acceptedIntervals modes, ((cumulative raws component counters i k : Int) -
        cumulative raws component counters (i - 1) k) ≤ 2 ^ 63 - 1) ∧
    ∀ q, aggregate config trace metric modes = .ok q →
      ∃ values, q = .array values ∧
        values.map Int64.toInt = (List.range n).map fun k =>
          ∑ i ∈ trace.acceptedIntervals modes, ((cumulative raws component counters i k : Int) -
            cumulative raws component counters (i - 1) k) := by
  obtain ⟨gauge, measured, available, rfl, same⟩ := rise.exists_gauge loaded
  have sums := aggregate_measures (Trace.fits_of_ofRaw loaded) measured available modes
  rw [same] at sums
  constructor
  · rw [sums.exists_ok_iff]
    apply and_congr_left
    intro _
    constructor
    · intro rising i accepted k inside
      exact rising k inside i accepted
    · intro rising k inside i accepted
      exact rising i accepted k inside
  · intro q summed
    exact ((sums.eq_ok_iff q).1 summed).2

end Stored

/-- The hits of a first-level cache include those in its filter. The hits of the last level fall in the
second interval, so they are summed only where it does not count. -/
theorem aggregate_exact_sample :
    (∃ values, aggregate Sample.config Sample.trace (.cache "l1d" .loadHits) (.only (.ofList [1]))
        = .ok (.array values) ∧ values.map Int64.toInt = [12]) ∧
    (∃ values, aggregate Sample.config Sample.trace (.cache "l3" .loadHits) (.only (.ofList [1]))
        = .ok (.array values) ∧ values.map Int64.toInt = [9]) ∧
    ∀ q, aggregate Sample.config Sample.trace (.cache "l3" .loadHits) .all ≠ .ok q := by
  have first : Metric.RiseOf Sample.config Sample.raws (.cache "l1d" .loadHits) "l1d" ["fhGETS", "hGETS"] 1 :=
    @Metric.RiseOf.cache _ _ (Sample.cache 1 "l1d" 1) _ _ (by decide) (.head _)
  have last : Metric.RiseOf Sample.config Sample.raws (.cache "l3" .loadHits) "l3" ["hGETS"] 1 :=
    @Metric.RiseOf.cache _ _ (Sample.cache 3 "l3" 1) _ _ (by decide) (.head _)
  refine ⟨?_, ?_, fun q summed => ?_⟩
  · obtain ⟨succeeds, sums⟩ := aggregate_exact Sample.loaded first (.only (.ofList [1]))
    obtain ⟨q, summed⟩ := succeeds.2 (by decide +kernel)
    obtain ⟨values, rfl, same⟩ := sums q summed
    exact ⟨values, summed, same.trans (by decide +kernel)⟩
  · obtain ⟨succeeds, sums⟩ := aggregate_exact Sample.loaded last (.only (.ofList [1]))
    obtain ⟨q, summed⟩ := succeeds.2 (by decide +kernel)
    obtain ⟨values, rfl, same⟩ := sums q summed
    exact ⟨values, summed, same.trans (by decide +kernel)⟩
  · have rising := ((aggregate_exact Sample.loaded last .all).1.1 ⟨q, summed⟩).1
    exact absurd (rising 2) (by decide +kernel)

end IntervalStats
