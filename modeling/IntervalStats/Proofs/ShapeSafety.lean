import IntervalStats.Proofs.IntervalChange

/-!
# How a sum may fail

Whether a metric can be summed at all is settled before the first interval: the trace must report its
core counter and its cache must be configured. Once that is so, lengths and positions are right
everywhere, and only the values of counters, phases and the clock can stop a sum
(`Failure.OfValues`). `Outcome.Regular` says this of a computation together with what holds of its
result; its rules follow the ways in which the changes of a metric are computed, and
`Metric.delta_regular` gives the shape of the change over one interval. `aggregate_failures` is the
account of all ways in which a sum can end.
-/

namespace IntervalStats

/-! ## Failures of values -/

/-- A counter that falls or overflows, a clock that stands still, or a word that is too small. -/
inductive Failure.OfValues : Failure → Prop where
  | decreased (component counter : String) (index : Nat) :
      OfValues (.error (.counterDecreased component counter index))
  | overflowed (component counter : String) (index : Nat) :
      OfValues (.error (.counterOverflowed component counter index))
  | noFrequency : OfValues (.error (.divisionByZero .elapsedTime))
  | addition : OfValues (.fault .addOverflow)
  | subtraction : OfValues (.fault .subtractOverflow)
  | multiplication : OfValues (.fault .multiplyOverflow)

/-- The computation gives a value with a property, or it fails because of values. -/
inductive Outcome.Regular {α : Type} (P : α → Prop) : Outcome α → Prop where
  | ok {a : α} (holds : P a) : Regular P (.ok a)
  | error {e : Failure} (kind : e.OfValues) : Regular P (.error e)

namespace Outcome.Regular

variable {α β γ : Type} {P : α → Prop} {Q : β → Prop} {x : Outcome α}

theorem bind {f : α → Outcome β} (first : Regular P x) (rest : ∀ a, P a → Regular Q (f a)) :
    Regular Q (x >>= f) := by
  cases first with
  | ok holds => exact rest _ holds
  | error kind => exact .error kind

theorem map {f : α → β} (first : Regular P x) (rest : ∀ a, P a → Q (f a)) : Regular Q (f <$> x) := by
  cases first with
  | ok holds => exact .ok (rest _ holds)
  | error kind => exact .error kind

/-- Lists of one length are joined to their end. -/
theorem joinExact {join : α → β → Outcome γ} (each : ∀ a b, Regular (fun _ => True) (join a b))
    {as : List α} {bs : List β} (lengths : as.length = bs.length) :
    Regular (fun cs => cs.length = as.length) (IntervalStats.joinExact join as bs) := by
  induction as generalizing bs with
  | nil =>
    obtain rfl := List.length_eq_zero_iff.1 lengths.symm
    exact .ok rfl
  | cons a as ih =>
    cases bs with
    | nil => simp at lengths
    | cons b bs =>
      refine (each a b).bind fun c _ => ?_
      refine (ih (Nat.succ.inj lengths)).bind fun cs length => ?_
      exact .ok (congrArg Nat.succ length)

theorem mapM {f : α → Outcome β} (each : ∀ a, Regular (fun _ => True) (f a)) (as : List α) :
    Regular (fun bs => bs.length = as.length) (as.mapM f) := by
  induction as with
  | nil => exact .ok rfl
  | cons a as ih =>
    rw [List.mapM_cons]
    refine (each a).bind fun b _ => ih.bind fun bs length => ?_
    exact .ok (congrArg Nat.succ length)

/-- What one step of a loop preserves the whole loop preserves. -/
theorem foldlM {step : β → α → Outcome β} {items : List α}
    (steps : ∀ b, Q b → ∀ a ∈ items, Regular Q (step b a)) {start : β} (holds : Q start) :
    Regular Q (items.foldlM step start) := by
  induction items generalizing start with
  | nil => exact .ok holds
  | cons a items ih =>
    rw [List.foldlM_cons]
    refine (steps start holds a (List.mem_cons_self ..)).bind fun next holds => ?_
    exact ih (fun b given c member => steps b given c (List.mem_cons_of_mem _ member)) holds

end Outcome.Regular

open Outcome (Regular)

/-! ## Words and quantities -/

theorem wordOf_regular {fault : Fault} (kind : (Failure.fault fault).OfValues) (x : Int) :
    Regular (fun _ => True) (wordOf x fault) := by
  unfold wordOf
  split
  · exact .ok trivial
  · exact .error kind

theorem unsignedOf_regular {fault : Fault} (kind : (Failure.fault fault).OfValues) (n : Nat) :
    Regular (fun _ => True) (unsignedOf n fault) := by
  unfold unsignedOf
  split
  · exact .ok trivial
  · exact .error kind

theorem Quantity.add_regular {a b : Quantity} {shape : Shape} (left : a.shape = shape)
    (right : b.shape = shape) : Regular (fun q => q.shape = shape) (a.add b) := by
  subst left
  cases a with
  | scalar x =>
    cases b with
    | scalar y => exact (wordOf_regular .addition _).map fun _ _ => rfl
    | array ys => cases right
  | array xs =>
    cases b with
    | scalar y => cases right
    | array ys =>
      have lengths : xs.length = ys.length := (Shape.array.inj right).symm
      rw [Quantity.add, combine, if_pos lengths]
      refine (Regular.joinExact (fun _ _ => wordOf_regular .addition _) lengths).map fun zs length => ?_
      exact congrArg Shape.array length

/-! ## Changes -/

theorem rises_regular (component counter : String) (index : Nat) {before after : List UInt64} {n : Nat}
    (left : before.length = n) (right : after.length = n) :
    Regular (fun q => q.shape = .array n) (rises component counter index before after) := by
  have each (b a : UInt64) : Regular (fun _ => True) (rise component counter index b a) := by
    unfold rise
    split
    · exact .error (.decreased ..)
    · split
      · exact .ok trivial
      · exact .error (.overflowed ..)
  refine (Regular.joinExact each (left.trans right.symm)).map fun changes length => ?_
  exact congrArg Shape.array (length.trans left)

namespace Trace

variable {config : Config} {trace : Trace} {index : Nat} {before after : Snapshot}

theorem coreDelta_regular (fits : trace.Fits config) {counter : CoreCounter}
    (reported : trace.reports counter = true) (first : trace.snapshots[index]? = some before)
    (second : trace.snapshots[index + 1]? = some after) :
    Regular (fun q => q.shape = .array config.cores) (trace.coreDelta config counter (index + 1)) := by
  obtain ⟨b, a, same, exactB, exactA⟩ := coreDelta_eq_rises fits reported first second
  rw [same]
  exact rises_regular _ _ _ exactB.length_eq exactA.length_eq

theorem cacheSumDelta_regular (fits : trace.Fits config) {name : String} {position : Nat}
    {cache : Cache} (found : config.findCache name = .ok (position, cache)) (sum : CacheSum)
    (first : trace.snapshots[index]? = some before)
    (second : trace.snapshots[index + 1]? = some after) :
    Regular (fun q => q.shape = .array cache.instances)
      (trace.cacheSumDelta config name sum (index + 1)) := by
  obtain ⟨b, a, same, exactB, exactA⟩ := cacheSumDelta_eq_rises fits found sum first second
  rw [same]
  exact rises_regular _ _ _ exactB.length_eq exactA.length_eq

theorem cacheDelta_regular (fits : trace.Fits config) {name : String} {position : Nat}
    {cache : Cache} (found : config.findCache name = .ok (position, cache)) (stat : CacheStat)
    (first : trace.snapshots[index]? = some before)
    (second : trace.snapshots[index + 1]? = some after) :
    Regular (fun q => q.shape = .array cache.instances)
      (trace.cacheDelta config name stat (index + 1)) := by
  have one (sum : CacheSum) := cacheSumDelta_regular fits found sum first second
  have pair (hits misses : CacheSum) : Regular (fun q => q.shape = .array cache.instances)
      (trace.cachePairDelta config name hits misses (index + 1)) :=
    (one hits).bind fun _ left => (one misses).bind fun _ right => Quantity.add_regular left right
  cases stat with
  | loads => exact pair _ _
  | stores => exact pair _ _
  | _ => exact one _

theorem intervalCycles_regular (config : Config) (first : trace.snapshots[index]? = some before)
    (second : trace.snapshots[index + 1]? = some after) :
    Regular (fun _ => True) (trace.intervalCycles config (index + 1)) := by
  simp only [intervalCycles, interval_eq_ok first second, ok_bind]
  split
  · exact .error (.decreased ..)
  · exact (unsignedOf_regular .addition _).bind fun _ _ => unsignedOf_regular .multiplication _

end Trace

theorem Config.timeOf_regular (config : Config) (cycles : Float) :
    Regular (fun _ => True) (config.timeOf cycles) := by
  unfold timeOf
  split
  · exact .error .noFrequency
  · exact .ok trivial

theorem Config.idleTime_regular (config : Config) (cycles busy : Int64) :
    Regular (fun _ => True) (config.idleTime cycles busy) :=
  (wordOf_regular .subtraction _).bind fun _ _ => config.timeOf_regular _

/-! ## Shapes -/

theorem Config.findCache_eq_error_iff {config : Config} {name : String} {e : Error} :
    config.findCache name = .error e ↔
      (∀ cache ∈ config.caches, cache.id.name ≠ name) ∧ e = .unknownCache name := by
  have missing : config.caches.findIdx? (·.id.name = name) = none ↔
      ∀ cache ∈ config.caches, cache.id.name ≠ name := by
    simp [List.findIdx?_eq_none_iff]
  rw [← missing, findCache]
  cases located : config.caches.findIdx? (·.id.name = name) with
  | none => simp [eq_comm]
  | some index =>
    obtain ⟨bound, -⟩ := List.findIdx?_eq_some_iff_getElem.1 located
    simp [List.getElem?_eq_getElem bound]

namespace Metric

variable {config : Config} {trace : Trace} {metric : Metric} {counter : CoreCounter} {name : String}

/-- The cache that a metric counts the accesses to. -/
def cacheName? : Metric → Option String
  | uops .load | uops .store => some uopCache
  | cache name _ => some name
  | _ => none

theorem cacheName?_eq_some_iff :
    metric.cacheName? = some name ↔
      (∃ stat, metric = .cache name stat) ∨
        name = "l1d" ∧ (metric = .uops .load ∨ metric = .uops .store) := by
  cases metric with
  | uops kind => cases kind <;> simp [cacheName?, uopCache, eq_comm]
  | cache other stat => simp [cacheName?]
  | _ => simp [cacheName?]

/-- A metric is built from a counter of the cores or from those of a cache, or it is the elapsed time. -/
theorem source_cases (metric : Metric) :
    (∃ counter, metric.coreCounter? = some counter ∧ metric.cacheName? = none) ∨
      (∃ name, metric.cacheName? = some name ∧ metric.coreCounter? = none) ∨
      metric = .elapsedTime := by
  cases metric with
  | uops kind => cases kind <;> simp [coreCounter?, cacheName?]
  | _ => simp [coreCounter?, cacheName?]

theorem shape_of_core (counted : metric.coreCounter? = some counter) :
    metric.shape config trace =
      if trace.reports counter then .ok (.array config.cores)
      else .error (.missingCounter config.coreGroup.name counter.name 0) := by
  cases reported : trace.reports counter with
  | true =>
    cases metric with
    | uops kind => cases kind <;> cases counted <;> simp [shape, coreCounter?, reported] <;> rfl
    | cache name stat => cases counted
    | elapsedTime => cases counted
    | _ =>
      cases counted
      simp [shape, coreCounter?, reported]
      rfl
  | false =>
    simp only [shape, counted, reported]
    rfl

theorem shape_of_cache (named : metric.cacheName? = some name) :
    metric.shape config trace =
      (config.findCache name).map fun found => .array found.2.instances := by
  cases metric with
  | uops kind => cases kind <;> cases named <;> rfl
  | cache name stat =>
    cases named
    rfl
  | _ => cases named

theorem shape_eq_error_iff_of_core {e : Error} (counted : metric.coreCounter? = some counter) :
    metric.shape config trace = .error e ↔
      trace.reports counter = false ∧ e = .missingCounter config.coreGroup.name counter.name 0 := by
  rw [shape_of_core counted]
  cases trace.reports counter <;> simp [eq_comm]

theorem shape_eq_error_iff_of_cache {e : Error} (named : metric.cacheName? = some name) :
    metric.shape config trace = .error e ↔
      (∀ cache ∈ config.caches, cache.id.name ≠ name) ∧ e = .unknownCache name := by
  rw [shape_of_cache named, ← Config.findCache_eq_error_iff]
  cases config.findCache name <;> simp [Except.map]

/-- A metric has no shape if the trace lacks its counter or the configuration its cache. -/
theorem shape_eq_error_iff {e : Error} :
    metric.shape config trace = .error e ↔
      (∃ counter, metric.coreCounter? = some counter ∧ trace.reports counter = false ∧
        e = .missingCounter config.coreGroup.name counter.name 0) ∨
      ∃ name, metric.cacheName? = some name ∧ (∀ cache ∈ config.caches, cache.id.name ≠ name) ∧
        e = .unknownCache name := by
  rcases metric.source_cases with ⟨counter, counted, noCache⟩ | ⟨name, named, noCounter⟩ | rfl
  · simp [shape_eq_error_iff_of_core counted, counted, noCache]
  · simp [shape_eq_error_iff_of_cache named, named, noCounter]
  · simp [shape, coreCounter?, cacheName?, pure, Except.pure]

theorem delta_regular (fits : trace.Fits config) {shape : Shape}
    (shaped : metric.shape config trace = .ok shape) {modes : ModeSet} {i : Nat}
    (accepts : trace.Accepts modes i) :
    Regular (fun q => q.shape = shape) (metric.delta config trace i) := by
  obtain ⟨j, before, after, rfl, first, last⟩ := accepts.exists_ends
  have ofCore {counter : CoreCounter} (counted : metric.coreCounter? = some counter) :
      Regular (fun q => q.shape = .array config.cores) (trace.coreDelta config counter (j + 1)) ∧
        shape = .array config.cores := by
    rw [shape_of_core counted] at shaped
    split at shaped
    next reported =>
      cases shaped
      exact ⟨Trace.coreDelta_regular fits reported first last, rfl⟩
    next => cases shaped
  have ofCache {name : String} (named : metric.cacheName? = some name) (stat : CacheStat) :
      Regular (fun q => q.shape = shape) (trace.cacheDelta config name stat (j + 1)) := by
    rw [shape_of_cache named] at shaped
    obtain ⟨found, located, rfl⟩ := map_eq_ok_iff.1 shaped
    exact Trace.cacheDelta_regular fits located stat first last
  cases metric with
  | uops kind =>
    cases kind with
    | load => exact ofCache rfl .loads
    | store => exact ofCache rfl .stores
    | _ =>
      obtain ⟨regular, rfl⟩ := ofCore rfl
      exact regular
  | cache name stat => exact ofCache rfl stat
  | elapsedTime =>
    cases shaped
    exact (Trace.intervalCycles_regular config first last).bind fun _ _ =>
      (config.timeOf_regular _).map fun _ _ => rfl
  | idleElapsedTime =>
    obtain ⟨regular, rfl⟩ := ofCore rfl
    refine (Trace.intervalCycles_regular config first last).bind fun cycles _ => ?_
    refine regular.bind fun busy busyShape => ?_
    refine (Regular.mapM (config.idleTime_regular cycles.toInt64) busy.elements).map fun times length => ?_
    rw [Quantity.length_elements, busyShape] at length
    exact congrArg Shape.array length
  | _ =>
    obtain ⟨regular, rfl⟩ := ofCore rfl
    exact regular

end Metric

/-! ## Sums -/

section Aggregate

variable {config : Config} {trace : Trace} {metric : Metric} {modes : ModeSet}

theorem aggregate_regular (fits : trace.Fits config) {shape : Shape}
    (shaped : metric.shape config trace = .ok shape) :
    Regular (fun q => q.shape = shape) (aggregate config trace metric modes) := by
  rw [aggregate, shaped]
  -- The running total keeps the shape of the zero that it starts from.
  refine Regular.foldlM (fun sum keeps i member => ?_) (Quantity.shape_zero shape)
  refine (metric.delta_regular fits shaped (Trace.mem_accepted.1 member)).bind fun change same => ?_
  exact Quantity.add_regular keeps same

/-- A failure that is not of values is that of the shape, whichever intervals count. -/
theorem aggregate_eq_error_iff (fits : trace.Fits config) (metric : Metric) (modes : ModeSet)
    {e : Failure} (other : ¬e.OfValues) :
    aggregate config trace metric modes = .error e ↔
      ∃ finding, e = .error finding ∧ metric.shape config trace = .error finding := by
  cases shaped : metric.shape config trace with
  | error finding =>
    have stops : aggregate config trace metric modes = .error (.error finding) := by
      rw [aggregate, shaped]
      rfl
    simp [stops, eq_comm]
  | ok shape =>
    have regular : Regular _ (aggregate config trace metric modes) := aggregate_regular fits shaped
    constructor
    · intro failed
      rw [failed] at regular
      cases regular with
      | error kind => exact absurd kind other
    · rintro ⟨finding, -, unshaped⟩
      cases unshaped

/-- A loaded trace does not report a counter that its baseline lacks. -/
theorem Trace.Fits.reports_eq_false_iff (fits : trace.Fits config) {counter : CoreCounter} :
    trace.reports counter = false ↔ ∀ s ∈ trace.snapshots, s.core counter = none := by
  constructor
  · intro unreported s member
    have same := fits.uniform s member counter
    rw [unreported] at same
    simpa using same
  · intro absent
    rw [Trace.reports, absent _ (List.mem_cons_self ..)]
    rfl

/-- A sum over intervals of a loaded trace has the shape of its metric. Lengths and positions never stop it:
its faults are overflows. A counter is missing exactly if no snapshot has the core counter of the metric,
and a cache is unknown exactly if the metric counts accesses to a cache that is not configured; both
are found whichever intervals count, even if none does. -/
theorem aggregate_failures {raws : List RawSnapshot}
    (loaded : (Trace.ofRaw config raws).outcome = .ok trace) (metric : Metric) (modes : ModeSet) :
    (∀ q, aggregate config trace metric modes = .ok q → metric.shape config trace = .ok q.shape) ∧
    (∀ what expected found,
      aggregate config trace metric modes ≠ fail (.shapeMismatch what expected found)) ∧
    (∀ fault, aggregate config trace metric modes = halt fault →
      fault = .addOverflow ∨ fault = .subtractOverflow ∨ fault = .multiplyOverflow) ∧
    (∀ component counter index,
      aggregate config trace metric modes = fail (.missingCounter component counter index) ↔
        ∃ c, metric.coreCounter? = some c ∧ (∀ s ∈ trace.snapshots, s.core c = none) ∧
          component = config.coreGroup.name ∧ counter = c.name ∧ index = 0) ∧
    ∀ name, aggregate config trace metric modes = fail (.unknownCache name) ↔
      ((∃ stat, metric = .cache name stat) ∨
        name = "l1d" ∧ (metric = .uops .load ∨ metric = .uops .store)) ∧
      ∀ cache ∈ config.caches, cache.id.name ≠ name := by
  have fits := Trace.fits_of_ofRaw loaded
  have failed_iff {e : Failure} := @aggregate_eq_error_iff config trace fits metric modes e
  refine ⟨fun q summed => (exact_of_aggregate_eq_ok summed).1, ?_, ?_, ?_, ?_⟩
  · intro what expected found failed
    obtain ⟨finding, same, unshaped⟩ := (failed_iff (by rintro ⟨⟩)).1 failed
    cases same
    rcases Metric.shape_eq_error_iff.1 unshaped with ⟨_, -, -, other⟩ | ⟨_, -, -, other⟩ <;> cases other
  · intro fault failed
    by_contra notOverflow
    have other : ¬(Failure.fault fault).OfValues := by
      intro kind
      cases kind <;> simp at notOverflow
    obtain ⟨finding, same, -⟩ := (failed_iff other).1 failed
    cases same
  · intro component counter index
    rw [fail, failed_iff (by rintro ⟨⟩)]
    simp [Metric.shape_eq_error_iff, fits.reports_eq_false_iff]
  · intro name
    rw [fail, failed_iff (by rintro ⟨⟩)]
    simp [Metric.shape_eq_error_iff, ← Metric.cacheName?_eq_some_iff]

end Aggregate

namespace Sample

/-- The counters after `n` units of work of cores that report nothing but instructions and cycles. -/
def simpleRaw (n : UInt64) : RawSnapshot where
  phase := n
  mode := 0
  components := (raw 0 0 n n).components.insert "westmere"
    (.ofList [("instrs", .array [4 * n, 2 * n]), ("cycles", .array [8 * n, 3 * n])])

def simpleTrace : Trace where
  baseline := (simpleRaw 1).view config
  later := [(simpleRaw 3).view config]

theorem simpleTrace_loaded :
    (Trace.ofRaw config [simpleRaw 1, simpleRaw 3]).outcome = .ok simpleTrace :=
  Trace.ofRaw_of_checks (by decide +kernel) (by decide +kernel)

end Sample

/-- Simple cores report no micro-ops and no fourth-level cache is configured. Both are found although no
interval counts, and neither stands in the way of other sums. -/
theorem aggregate_failures_sample :
    aggregate Sample.config Sample.simpleTrace (.uops .total) (.only .empty) =
      fail (.missingCounter "westmere" "uops" 0) ∧
    aggregate Sample.config Sample.simpleTrace (.cache "l4" .loads) (.only .empty) =
      fail (.unknownCache "l4") ∧
    ∃ q, aggregate Sample.config Sample.simpleTrace .cycles .all = .ok q ∧ q.shape = .array 2 := by
  obtain ⟨-, -, -, missing, -⟩ :=
    aggregate_failures Sample.simpleTrace_loaded (.uops .total) (.only .empty)
  obtain ⟨-, -, -, -, unknown⟩ :=
    aggregate_failures Sample.simpleTrace_loaded (.cache "l4" .loads) (.only .empty)
  obtain ⟨shaped, -⟩ := aggregate_failures Sample.simpleTrace_loaded .cycles .all
  have summed : aggregate Sample.config Sample.simpleTrace .cycles .all = .ok (.array [16, 6]) := by
    rfl
  have noUops : ∀ s ∈ Sample.simpleTrace.snapshots, s.core .uops = none := by
    intro s member
    simp only [Trace.snapshots, Sample.simpleTrace, List.mem_cons, List.not_mem_nil, or_false] at member
    rcases member with rfl | rfl <;> rfl
  refine ⟨?_, ?_, .array [16, 6], summed, ?_⟩
  · exact (missing _ _ _).2 ⟨.uops, rfl, noUops, rfl, rfl, rfl⟩
  · exact (unknown _).2 ⟨.inl ⟨.loads, rfl⟩, by decide⟩
  · exact (Except.ok.inj (shaped _ summed)).symm

end IntervalStats
