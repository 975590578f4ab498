import IntervalStats.Metric.Delta
import IntervalStats.Proofs.ExactQuantity
import IntervalStats.Proofs.LoadedTrace

/-!
# Gauges

A gauge is a cumulative value that a metric is the rise of: a counter of the cores, or a sum of
counters of a cache. `Trace.reading` is what a gauge shows at a snapshot, as a natural number and
without reference to how the change over an interval is computed. `Metric.delta_measures` says what
that computation gives on a loaded trace: the exact difference of two readings, unless it is negative
or does not fit a signed word.
-/

namespace IntervalStats

/-! ## Readings -/

/-- A cumulative value: a counter of the cores, or a sum of counters of a cache. -/
inductive Gauge where
  | core (counter : CoreCounter)
  | cache (name : String) (sum : CacheSum)
  deriving DecidableEq, Repr

/-- The gauge that a metric is the rise of. Loads and stores are made of two gauges, and times of
none. -/
def Metric.gauge? : Metric → Option Gauge
  | instructions => some (.core .instructions)
  | cycles => some (.core .cycles)
  | mispredictedBranches => some (.core .mispredictedBranches)
  | correctBranches => some (.core .predictedBranches)
  | uops .branch => some (.core .branchUops)
  | uops .fpAddSub => some (.core .fpAddSubUops)
  | uops .fpMulDiv => some (.core .fpMulDivUops)
  | uops .total => some (.core .uops)
  | cache name .loadHits => some (.cache name .loadHits)
  | cache name .loadMisses => some (.cache name .loadMisses)
  | cache name .storeHits => some (.cache name .storeHits)
  | cache name .storeMisses => some (.cache name .storeMisses)
  | uops .load | uops .store | cache _ .loads | cache _ .stores | elapsedTime | idleElapsedTime => none

/-- The value of a counter of a core, 0 if it is not reported. -/
def Snapshot.coreValue (s : Snapshot) (counter : CoreCounter) (core : Nat) : Nat :=
  (((s.core counter).getD []).getD core 0).toNat

/-- The value of a counter of an instance of the cache at a position, 0 if there is none. -/
def Snapshot.cacheValue (s : Snapshot) (position : Nat) (counter : CacheCounter) (k : Nat) : Nat :=
  (((s.cache position counter).toOption.getD []).getD k 0).toNat

/-- The counters of a cache of a level that are counted together. Hits of a first-level cache include those
in its filter, and a store may miss an invalid or a shared line. -/
def CacheSum.parts (level : Nat) : CacheSum → List CacheCounter
  | loadHits => if level = 1 then [.filterLoadHits, .loadHits] else [.loadHits]
  | loadMisses => [.loadMisses]
  | storeHits => if level = 1 then [.filterStoreHits, .storeHits] else [.storeHits]
  | storeMisses => [.storeMissesInvalid, .storeMissesShared]

theorem CacheSum.counters_eq_parts (id : CacheId) (sum : CacheSum) :
    sum.counters id = sum.parts id.level := by
  cases sum <;> simp [counters, parts, CacheId.isFirstLevel]

/-- The trace reports the counter, or the cache is configured. -/
def Gauge.Available (config : Config) (trace : Trace) : Gauge → Prop
  | .core counter => trace.reports counter = true
  | .cache name _ => ∃ found, config.findCache name = .ok found

/-- The number of instances that have a reading of their own. -/
def Gauge.instances (config : Config) : Gauge → Nat
  | .core _ => config.cores
  | .cache name _ =>
    match config.findCache name with
    | .ok (_, found) => found.instances
    | .error _ => 0

/-- What the gauge shows for one instance. A sum of counters stays at the greatest unsigned word. -/
def Gauge.reading (config : Config) (s : Snapshot) (gauge : Gauge) (k : Nat) : Nat :=
  match gauge with
  | .core counter => s.coreValue counter k
  | .cache name sum =>
    match config.findCache name with
    | .ok (position, found) =>
      min ((sum.parts found.id.level).map fun counter => s.cacheValue position counter k).sum (2 ^ 64 - 1)
    | .error _ => 0

/-- What a gauge shows for one instance at the snapshot at an index. -/
def Trace.reading (trace : Trace) (config : Config) (gauge : Gauge) (index k : Nat) : Nat :=
  match trace.snapshots[index]? with
  | some s => gauge.reading config s k
  | none => 0

theorem Trace.reading_eq {trace : Trace} {config : Config} {gauge : Gauge} {index : Nat} {s : Snapshot}
    (present : trace.snapshots[index]? = some s) :
    trace.reading config gauge index = gauge.reading config s := by
  funext k
  simp only [reading, present]

/-! ## Unsigned words -/

/-- The words are these numbers, one for each of `n` instances. -/
structure ExactCounters (values : List UInt64) (n : Nat) (exact : Nat → Nat) : Prop where
  length_eq : values.length = n
  toNat_getElem? : ∀ (k : Nat) value, values[k]? = some value → value.toNat = exact k

theorem ExactCounters.exists_getElem? {values : List UInt64} {n : Nat} {exact : Nat → Nat}
    (counters : ExactCounters values n exact) {k : Nat} (inside : k < n) :
    ∃ value, values[k]? = some value ∧ value.toNat = exact k := by
  have bound : k < values.length := counters.length_eq ▸ inside
  exact ⟨values[k], List.getElem?_eq_getElem bound,
    counters.toNat_getElem? k _ (List.getElem?_eq_getElem bound)⟩

theorem exactCounters_getD {values : List UInt64} {n : Nat} (length : values.length = n) :
    ExactCounters values n fun k => (values.getD k 0).toNat := by
  refine ⟨length, fun k value present => ?_⟩
  simp [present]

theorem toNat_saturatingAdd (a b : UInt64) :
    (saturatingAdd a b).toNat = min (a.toNat + b.toNat) (2 ^ 64 - 1) := by
  unfold saturatingAdd
  rw [UInt64.toNat_ofNat', UInt64.size]
  apply Nat.mod_eq_of_lt
  omega

/-- A counter rises by the exact difference if it does not fall; a difference that is no signed word
gives no result. -/
theorem rise_eq_ok_iff {component counter : String} {index : Nat} {before after : UInt64}
    {change : Int64} :
    rise component counter index before after = .ok change ↔
      before.toNat ≤ after.toNat ∧ change.toInt = (after.toNat : Int) - before.toNat := by
  unfold rise
  split
  · rename_i fell
    rw [UInt64.lt_iff_toNat_lt] at fell
    constructor
    · intro ok
      cases ok
    · rintro ⟨rose, -⟩
      omega
  · rename_i rose
    rw [UInt64.lt_iff_toNat_lt, Nat.not_lt] at rose
    have exact : ((after - before).toNat : Int) = (after.toNat : Int) - before.toNat := by
      rw [UInt64.toNat_sub_of_le _ _ (UInt64.le_iff_toNat_le.2 rose)]
      omega
    split
    · rename_i small
      have fits : FitsWord ((after - before).toNat : Int) := by
        constructor <;> omega
      rw [← exact]
      constructor
      · intro ok
        cases ok
        exact ⟨rose, toInt_ofInt_of_fitsWord fits⟩
      · rintro ⟨-, same⟩
        rw [← same, Int64.ofInt_toInt]
    · rename_i large
      constructor
      · intro ok
        cases ok
      · rintro ⟨-, same⟩
        have high := (fitsWord_toInt change).2
        omega

theorem rises_measures (component counter : String) (index : Nat) {before after : List UInt64}
    {n : Nat} {b a : Nat → Nat} (earlier : ExactCounters before n b) (later : ExactCounters after n a) :
    Measures (rises component counter index before after) n (fun k => b k ≤ a k)
      fun k => (a k : Int) - b k := by
  refine ⟨fun k _ rose => by omega, fun q => ?_⟩
  rw [rises, map_eq_ok_iff]
  simp only [joinExact_eq_ok_iff, rise_eq_ok_iff, earlier.length_eq, later.length_eq]
  constructor
  · rintro ⟨changes, ⟨length, -, rose⟩, rfl⟩
    have elementwise : ∀ k < n, ∃ change, changes[k]? = some change ∧ b k ≤ a k ∧
        change.toInt = (a k : Int) - b k := by
      intro k inside
      obtain ⟨first, present, exactB⟩ := earlier.exists_getElem? inside
      obtain ⟨second, present', exactA⟩ := later.exists_getElem? inside
      have bound : k < changes.length := length ▸ inside
      have change := rose k _ _ _ present present' (List.getElem?_eq_getElem bound)
      rw [exactB, exactA] at change
      exact ⟨_, List.getElem?_eq_getElem bound, change⟩
    refine ⟨fun k inside => ?_, changes, rfl, exactWords_iff.2 ⟨length.symm, fun k value present => ?_⟩⟩
    · obtain ⟨-, -, admitted, -⟩ := elementwise k inside
      exact admitted
    · have inside : k < n := length ▸ (List.getElem?_eq_some_iff.1 present).1
      obtain ⟨change, present', -, same⟩ := elementwise k inside
      cases present.symm.trans present'
      exact same
  · rintro ⟨admitted, changes, rfl, words⟩
    refine ⟨changes, ⟨words.length_eq.symm, words.length_eq.symm, ?_⟩, rfl⟩
    intro k first second change present present' given
    have inside : k < n := words.length_eq ▸ (List.getElem?_eq_some_iff.1 given).1
    rw [earlier.toNat_getElem? k _ present, later.toNat_getElem? k _ present']
    exact ⟨admitted k inside, words.toInt_getElem? given⟩

theorem joinExact_saturatingAdd {xs ys : List UInt64} {n : Nat} {f g : Nat → Nat}
    (left : ExactCounters xs n f) (right : ExactCounters ys n g) :
    ∃ sums, joinExact (fun total value => .ok (saturatingAdd total value)) xs ys = .ok sums ∧
      ExactCounters sums n fun k => min (f k + g k) (2 ^ 64 - 1) := by
  have length : (List.zipWith saturatingAdd xs ys).length = n := by
    simp [left.length_eq, right.length_eq]
  refine ⟨List.zipWith saturatingAdd xs ys, joinExact_eq_ok_iff.2 ⟨?_, ?_, ?_⟩, length, ?_⟩
  · rw [length, left.length_eq]
  · rw [length, right.length_eq]
  · intro k x y sum hx hy hsum
    obtain ⟨x', y', hx', hy', rfl⟩ := List.getElem?_zipWith_eq_some.1 hsum
    cases hx.symm.trans hx'
    cases hy.symm.trans hy'
    rfl
  · intro k sum present
    obtain ⟨x, y, hx, hy, rfl⟩ := List.getElem?_zipWith_eq_some.1 present
    rw [toNat_saturatingAdd, left.toNat_getElem? k x hx, right.toNat_getElem? k y hy]

/-- A sum that stays at the greatest word, taken counter by counter, is the exact sum cut off there. -/
theorem foldlM_saturatingAdd_exact {read : CacheCounter → Outcome (List UInt64)}
    {values : CacheCounter → List UInt64} {n : Nat} (stored : ∀ c, read c = .ok (values c))
    (lengths : ∀ c, (values c).length = n) (counters : List CacheCounter) {start : List UInt64}
    {base : Nat → Nat} (exact : ExactCounters start n base) (small : ∀ k, base k ≤ 2 ^ 64 - 1) :
    ∃ sums, counters.foldlM (fun sum c => do
        let values ← read c
        joinExact (fun total value => .ok (saturatingAdd total value)) sum values) start
        = (.ok sums : Outcome (List UInt64)) ∧
      ExactCounters sums n fun k =>
        min (base k + (counters.map fun c => ((values c).getD k 0).toNat).sum) (2 ^ 64 - 1) := by
  induction counters generalizing start base with
  | nil =>
    refine ⟨start, rfl, exact.length_eq, fun k value present => ?_⟩
    rw [List.map_nil, List.sum_nil, Nat.add_zero, Nat.min_eq_left (small k)]
    exact exact.toNat_getElem? k value present
  | cons c counters ih =>
    obtain ⟨next, joined, exactNext⟩ := joinExact_saturatingAdd exact (exactCounters_getD (lengths c))
    obtain ⟨sums, folded, exactSums⟩ := ih exactNext fun k => Nat.min_le_right ..
    refine ⟨sums, ?_, exactSums.length_eq, fun k value present => ?_⟩
    · rw [List.foldlM_cons, stored, ok_bind, joined]
      exact folded
    · rw [exactSums.toNat_getElem? k value present, List.map_cons, List.sum_cons]
      omega

/-! ## Changes -/

theorem Config.findCache_eq_ok {config : Config} {name : String} {position : Nat} {cache : Cache}
    (found : config.findCache name = .ok (position, cache)) :
    config.caches[position]? = some cache ∧ cache.id.name = name := by
  unfold findCache at found
  split at found
  · rename_i index first
    obtain ⟨bound, named, -⟩ := List.findIdx?_eq_some_iff_getElem.1 first
    rw [List.getElem?_eq_getElem bound] at found
    cases found
    exact ⟨List.getElem?_eq_getElem bound, by simpa using named⟩
  · cases found

/-- A cache is found by its name, as no other cache has it. -/
theorem Config.findCache_name {config : Config} {position : Nat} {cache : Cache}
    (present : config.caches[position]? = some cache) :
    config.findCache cache.id.name = .ok (position, cache) := by
  have located : config.caches.findIdx? (·.id.name = cache.id.name) = some position := by
    obtain ⟨bound, rfl⟩ := List.getElem?_eq_some_iff.1 present
    refine List.findIdx?_eq_some_iff_getElem.2 ⟨bound, by simp, fun other earlier => ?_⟩
    have different := List.pairwise_iff_getElem.1 (List.pairwise_map.1 config.distinct) other position
      (Nat.lt_trans earlier bound) bound earlier
    simpa using different
  simp only [findCache, located, present]

theorem Snapshot.Fits.coreValue_exact {config : Config} {s : Snapshot} (fits : s.Fits config)
    {counter : CoreCounter} {values : List UInt64} (present : s.core counter = some values) :
    ExactCounters values config.cores (s.coreValue counter) := by
  have exact := exactCounters_getD (fits.cores counter values present)
  unfold Snapshot.coreValue
  rw [present]
  exact exact

theorem Snapshot.Fits.cacheSum_exact {config : Config} {s : Snapshot} (fits : s.Fits config)
    {position : Nat} {cache : Cache} (present : config.caches[position]? = some cache)
    (counters : List CacheCounter) :
    ∃ sums, s.cacheSum position cache.instances counters = .ok sums ∧
      ExactCounters sums cache.instances fun k =>
        min (counters.map fun counter => s.cacheValue position counter k).sum (2 ^ 64 - 1) := by
  choose values stored lengths using fits.caches position cache present
  have start : ExactCounters (List.replicate cache.instances 0) cache.instances fun _ => 0 := by
    refine ⟨List.length_replicate, fun k value present => ?_⟩
    rw [(List.mem_replicate.1 (List.mem_of_getElem? present)).2]
    rfl
  obtain ⟨sums, folded, exact⟩ :=
    foldlM_saturatingAdd_exact stored lengths counters start fun _ => Nat.zero_le _
  refine ⟨sums, folded, ?_⟩
  simpa [Snapshot.cacheValue, stored, Except.toOption] using exact

namespace Trace

variable {config : Config} {trace : Trace} {index : Nat} {before after : Snapshot}

theorem interval_eq_ok (first : trace.snapshots[index]? = some before)
    (second : trace.snapshots[index + 1]? = some after) :
    trace.interval (index + 1) = .ok (before, after) := by
  simp only [interval, snapshot, first, second]
  rfl

/-- The change of a counter of the cores is the rise from one list of values to another. -/
theorem coreDelta_eq_rises (fits : trace.Fits config) {counter : CoreCounter}
    (reported : trace.reports counter = true)
    (first : trace.snapshots[index]? = some before)
    (second : trace.snapshots[index + 1]? = some after) :
    ∃ b a, trace.coreDelta config counter (index + 1) =
        rises config.coreGroup.name counter.name (index + 1) b a ∧
      ExactCounters b config.cores (before.coreValue counter) ∧
      ExactCounters a config.cores (after.coreValue counter) := by
  have stored : ∀ s ∈ trace.snapshots, ∃ values, s.core counter = some values := by
    intro s member
    exact Option.isSome_iff_exists.1 ((fits.uniform s member counter).trans reported)
  have earlier := List.mem_of_getElem? first
  have later := List.mem_of_getElem? second
  obtain ⟨b, presentB⟩ := stored before earlier
  obtain ⟨a, presentA⟩ := stored after later
  refine ⟨b, a, ?_, (fits.snapshots before earlier).coreValue_exact presentB,
    (fits.snapshots after later).coreValue_exact presentA⟩
  simp only [coreDelta, interval_eq_ok first second, ok_bind, presentB, presentA]

theorem coreDelta_measures (fits : trace.Fits config) {counter : CoreCounter}
    (reported : trace.reports counter = true)
    (first : trace.snapshots[index]? = some before)
    (second : trace.snapshots[index + 1]? = some after) :
    Measures (trace.coreDelta config counter (index + 1)) config.cores
      (fun k => before.coreValue counter k ≤ after.coreValue counter k)
      fun k => (after.coreValue counter k : Int) - before.coreValue counter k := by
  obtain ⟨b, a, same, exactB, exactA⟩ := coreDelta_eq_rises fits reported first second
  rw [same]
  exact rises_measures _ _ _ exactB exactA

/-- The change of a sum of counters of a cache is the rise from one list of sums to another. -/
theorem cacheSumDelta_eq_rises (fits : trace.Fits config) {name : String} {position : Nat}
    {cache : Cache} (found : config.findCache name = .ok (position, cache)) (sum : CacheSum)
    (first : trace.snapshots[index]? = some before)
    (second : trace.snapshots[index + 1]? = some after) :
    ∃ b a, trace.cacheSumDelta config name sum (index + 1) =
        rises name (counterSumName (sum.counters cache.id)) (index + 1) b a ∧
      ExactCounters b cache.instances (Gauge.reading config before (.cache name sum)) ∧
      ExactCounters a cache.instances (Gauge.reading config after (.cache name sum)) := by
  have present := (Config.findCache_eq_ok found).1
  obtain ⟨b, summedB, exactB⟩ := (fits.snapshots before (List.mem_of_getElem? first)).cacheSum_exact
    present (sum.counters cache.id)
  obtain ⟨a, summedA, exactA⟩ := (fits.snapshots after (List.mem_of_getElem? second)).cacheSum_exact
    present (sum.counters cache.id)
  refine ⟨b, a, ?_, ?_⟩
  · simp only [cacheSumDelta, found, Outcome.ofExcept, interval_eq_ok first second, ok_bind, summedB,
      summedA]
  · unfold Gauge.reading
    simp only [found, ← CacheSum.counters_eq_parts]
    exact ⟨exactB, exactA⟩

theorem cacheSumDelta_measures (fits : trace.Fits config) {name : String} {position : Nat}
    {cache : Cache} (found : config.findCache name = .ok (position, cache)) (sum : CacheSum)
    (first : trace.snapshots[index]? = some before)
    (second : trace.snapshots[index + 1]? = some after) :
    Measures (trace.cacheSumDelta config name sum (index + 1)) cache.instances
      (fun k => Gauge.reading config before (.cache name sum) k ≤
        Gauge.reading config after (.cache name sum) k)
      fun k => (Gauge.reading config after (.cache name sum) k : Int) -
        Gauge.reading config before (.cache name sum) k := by
  obtain ⟨b, a, same, exactB, exactA⟩ := cacheSumDelta_eq_rises fits found sum first second
  rw [same]
  exact rises_measures _ _ _ exactB exactA

end Trace

namespace Metric

variable {config : Config} {trace : Trace} {metric : Metric} {gauge : Gauge}

/-- The change of a metric is the change of its gauge. -/
theorem delta_eq_of_gauge (measured : metric.gauge? = some gauge) (index : Nat) :
    metric.delta config trace index =
      match gauge with
      | .core counter => trace.coreDelta config counter index
      | .cache name sum => trace.cacheSumDelta config name sum index := by
  cases metric with
  | uops kind => cases kind <;> cases measured <;> rfl
  | cache name stat => cases stat <;> cases measured <;> rfl
  | _ => cases measured <;> rfl

theorem shape_eq_of_gauge (measured : metric.gauge? = some gauge)
    (available : gauge.Available config trace) :
    metric.shape config trace = .ok (.array (gauge.instances config)) := by
  cases gauge with
  | core counter =>
    have reported : trace.reports counter = true := available
    cases metric with
    | uops kind => cases kind <;> cases measured <;> simp [shape, coreCounter?, reported] <;> rfl
    | cache name stat => cases stat <;> cases measured
    | _ => cases measured <;> simp [shape, coreCounter?, reported] <;> rfl
  | cache name sum =>
    obtain ⟨⟨position, found⟩, located⟩ := available
    cases metric with
    | uops kind => cases kind <;> cases measured
    | cache name stat =>
      cases stat <;> cases measured <;> simp [shape, coreCounter?, located, Gauge.instances]
    | _ => cases measured

/-- On a loaded trace a metric changes by the difference of the readings of its gauge. -/
theorem delta_measures (fits : trace.Fits config) (measured : metric.gauge? = some gauge)
    (available : gauge.Available config trace) {index : Nat} (inside : index + 1 < trace.size) :
    Measures (metric.delta config trace (index + 1)) (gauge.instances config)
      (fun k => trace.reading config gauge index k ≤ trace.reading config gauge (index + 1) k)
      fun k => (trace.reading config gauge (index + 1) k : Int) -
        trace.reading config gauge index k := by
  have first := List.getElem?_eq_getElem (Nat.lt_of_succ_lt inside : index < trace.snapshots.length)
  have second := List.getElem?_eq_getElem (inside : index + 1 < trace.snapshots.length)
  rw [delta_eq_of_gauge measured]
  simp only [Trace.reading, first, second]
  cases gauge with
  | core counter => exact Trace.coreDelta_measures fits available first second
  | cache name sum =>
    obtain ⟨⟨position, found⟩, located⟩ := available
    simp only [Gauge.instances, located]
    exact Trace.cacheSumDelta_measures fits located sum first second

end Metric

end IntervalStats
