import IntervalStats.Proofs.Decomposition
import IntervalStats.Proofs.ReportAgreement

/-!
# Sums of cache characteristics

Accesses are hits and misses, and loads and stores. Each characteristic of a cache takes its own list of
counts, sums each of them over the intervals and then over the instances, and adds the results, with a
check at every addition. `evaluate_decomposes` says that the order of these sums never shows: the numbers of
the parts give the number of the whole, and the whole is missing exactly where a part is or the exact sum
is no signed word. The counts of a characteristic are told apart by their gauges (`countGauges`), and two
characteristics make up a third if their gauges together are its own (`evaluate_addsUp_of_gauges`).
-/

namespace IntervalStats

/-- A number adds up two others: it is found exactly if both are and their sum does not exceed the greatest
signed word, and then it is that sum. -/
structure NumbersAddUp (whole left right : Outcome Number) : Prop where
  exists_ok_iff : (∃ n, whole = .ok (.integer n)) ↔
    ∃ l r, left = .ok (.integer l) ∧ right = .ok (.integer r) ∧ l.toInt + r.toInt ≤ 2 ^ 63 - 1
  eq_sum : ∀ n l r, whole = .ok (.integer n) → left = .ok (.integer l) → right = .ok (.integer r) →
    n.toInt = l.toInt + r.toInt

namespace Yields

variable {x y z : Outcome Int64} {P Q : Prop} {m n : Int}

theorem congr (yields : Yields x P m) (admits : P ↔ Q) (same : m = n) : Yields x Q n :=
  propext admits ▸ same ▸ yields

theorem toInt_nonneg (yields : Yields x P m) {word : Int64} (got : x = .ok word) : 0 ≤ word.toInt := by
  obtain ⟨admitted, same⟩ := (yields.eq_ok_iff word).1 got
  rw [same]
  exact yields.nonneg admitted

theorem toInt_eq_add (whole : Yields z (P ∧ Q) (m + n)) (left : Yields x P m) (right : Yields y Q n)
    {word l r : Int64} (gotWhole : z = .ok word) (gotLeft : x = .ok l) (gotRight : y = .ok r) :
    word.toInt = l.toInt + r.toInt := by
  rw [((whole.eq_ok_iff word).1 gotWhole).2, ((left.eq_ok_iff l).1 gotLeft).2,
    ((right.eq_ok_iff r).1 gotRight).2]

/-- What yields a sum is found wherever both parts are and their sum fits. -/
theorem exists_ok_iff_of_add (whole : Yields z (P ∧ Q) (m + n)) (left : Yields x P m)
    (right : Yields y Q n) :
    (∃ word, z = .ok word) ↔
      ∃ l r, x = .ok l ∧ y = .ok r ∧ l.toInt + r.toInt ≤ 2 ^ 63 - 1 := by
  rw [whole.exists_ok_iff]
  constructor
  · rintro ⟨⟨admittedP, admittedQ⟩, small⟩
    -- Neither part is negative, so neither exceeds the sum.
    have lowM := left.nonneg admittedP
    have lowN := right.nonneg admittedQ
    obtain ⟨l, gotLeft⟩ := left.exists_ok_iff.2 ⟨admittedP, by omega⟩
    obtain ⟨r, gotRight⟩ := right.exists_ok_iff.2 ⟨admittedQ, by omega⟩
    refine ⟨l, r, gotLeft, gotRight, ?_⟩
    rw [((left.eq_ok_iff l).1 gotLeft).2, ((right.eq_ok_iff r).1 gotRight).2]
    exact small
  · rintro ⟨l, r, gotLeft, gotRight, small⟩
    obtain ⟨admittedP, exactL⟩ := (left.eq_ok_iff l).1 gotLeft
    obtain ⟨admittedQ, exactR⟩ := (right.eq_ok_iff r).1 gotRight
    rw [exactL, exactR] at small
    exact ⟨⟨admittedP, admittedQ⟩, small⟩

end Yields

namespace Aggregator

/-- None of the gauges falls on one of so many instances. -/
def AllRise (a : Aggregator) (instances : Nat) (gauges : List Gauge) : Prop :=
  ∀ gauge ∈ gauges, ∀ k < instances, a.trace.Rising a.config a.modes gauge k

/-- What the gauges rise by together, over so many instances. -/
def joinedRise (a : Aggregator) (instances : Nat) (gauges : List Gauge) : Int :=
  (gauges.map fun gauge =>
    ∑ k ∈ Finset.range instances, a.trace.totalRise a.config a.modes gauge k).sum

variable {a : Aggregator} {instances : Nat} {whole left right : List Gauge}

theorem allRise_of_perm (together : whole.Perm (left ++ right)) :
    a.AllRise instances whole ↔ a.AllRise instances left ∧ a.AllRise instances right := by
  rw [AllRise, AllRise, AllRise, ← List.forall_mem_append]
  simp only [together.mem_iff]

theorem joinedRise_of_perm (together : whole.Perm (left ++ right)) :
    a.joinedRise instances whole = a.joinedRise instances left + a.joinedRise instances right := by
  rw [joinedRise, (together.map _).sum_eq, List.map_append, List.sum_append]
  rfl

end Aggregator

namespace Characteristic

variable {a : Aggregator} {name : String}

/-! ## Counts by their gauges -/

/-- The gauges whose rises make up several counts of a cache. -/
def countGauges (name : String) (stats : List CacheStat) : List Gauge :=
  stats.flatMap fun stat => Metric.gauges (.cache name stat)

/-- Accesses of any outcome rise with hits and with misses. -/
theorem countGauges_any (name : String) (kind : AccessKind) :
    (countGauges name (AccessOutcome.any.stats kind)).Perm
      (countGauges name (AccessOutcome.hits.stats kind) ++
        countGauges name (AccessOutcome.misses.stats kind)) := by
  cases kind with
  | loads => exact .refl _
  | stores => exact .refl _
  | both => exact .cons _ (.swap ..)

/-- Accesses of both kinds rise with loads and with stores. -/
theorem countGauges_both (name : String) (outcome : AccessOutcome) :
    countGauges name (outcome.stats .both) =
      countGauges name (outcome.stats .loads) ++ countGauges name (outcome.stats .stores) := by
  cases outcome <;> rfl

theorem countAccesses_yields_joinedRise (fits : a.trace.Fits a.config) {found : Nat × Cache}
    (located : a.config.findCache name = .ok found) (stats : List CacheStat) :
    Yields (countAccesses a name stats).outcome (a.AllRise found.2.instances (countGauges name stats))
      (a.joinedRise found.2.instances (countGauges name stats)) := by
  refine (countAccesses_yields fits located stats).congr ?_ ?_
  · simp only [Aggregator.AllRise, countGauges, List.forall_mem_flatMap, Aggregator.Rising,
      Metric.instances_cache located]
    constructor
    · intro rising stat member gauge listed k inside
      exact rising stat member k inside gauge listed
    · intro rising stat member k inside gauge listed
      exact rising stat member gauge listed k inside
  · simp only [Aggregator.joinedRise, countGauges, Trace.count, ← sum_map_sum]
    induction stats with
    | nil => rfl
    | cons stat stats ih =>
      rw [List.map_cons, List.sum_cons, ih, List.flatMap_cons, List.map_append, List.sum_append]

/-- A cache that is not configured has no counts. -/
theorem countAccesses_of_unknown {e : Error} (unknown : a.config.findCache name = .error e)
    {stats : List CacheStat} (asked : stats ≠ []) (n : Int64) :
    (countAccesses a name stats).outcome ≠ .ok n := by
  obtain ⟨stat, stats, rfl⟩ := List.exists_cons_of_ne_nil asked
  have failed : (a.total (.cache name stat)).outcome = fail e := by
    rw [Aggregator.outcome_total, aggregate_of_unknown unknown]
    rfl
  simp only [countAccesses, Logged.outcome_foldlM, List.foldlM_cons, Logged.outcome_bind, failed]
  intro got
  cases got

theorem stats_ne_nil (outcome : AccessOutcome) (kind : AccessKind) : outcome.stats kind ≠ [] := by
  cases outcome <;> cases kind <;> exact List.cons_ne_nil _ _

/-! ## Evaluation -/

theorem outcome_evaluate_none (outcome : AccessOutcome) (kind : AccessKind) (n : Int64) :
    ((cache outcome kind false).evaluate a none).outcome ≠ .ok (.integer n) := by
  intro got
  cases got

theorem outcome_evaluate_some (outcome : AccessOutcome) (kind : AccessKind) (name : String) (n : Int64) :
    ((cache outcome kind false).evaluate a (some name)).outcome = .ok (.integer n) ↔
      (countAccesses a name (outcome.stats kind)).outcome = .ok n :=
  outcome_integer_eq_ok_iff

/-- Two characteristics of a cache make up a third whose gauges are theirs together. -/
theorem evaluate_addsUp_of_gauges (fits : a.trace.Fits a.config) {outcome left right : AccessOutcome}
    {kind ofLeft ofRight : AccessKind}
    (together : ∀ name, (countGauges name (outcome.stats kind)).Perm
      (countGauges name (left.stats ofLeft) ++ countGauges name (right.stats ofRight)))
    (cacheName : Option String) :
    NumbersAddUp ((cache outcome kind false).evaluate a cacheName).outcome
      ((cache left ofLeft false).evaluate a cacheName).outcome
      ((cache right ofRight false).evaluate a cacheName).outcome := by
  cases cacheName with
  | none => constructor <;> simp [outcome_evaluate_none]
  | some name =>
    cases located : a.config.findCache name with
    | error e =>
      have unknown (outcome : AccessOutcome) (kind : AccessKind) (n : Int64) :=
        countAccesses_of_unknown located (stats_ne_nil outcome kind) n
      constructor <;> simp [outcome_evaluate_some, unknown]
    | ok found =>
      have yields (outcome : AccessOutcome) (kind : AccessKind) :=
        countAccesses_yields_joinedRise fits located (outcome.stats kind)
      have whole := (yields outcome kind).congr (Aggregator.allRise_of_perm (together name))
        (Aggregator.joinedRise_of_perm (together name))
      constructor
      · simp only [outcome_evaluate_some]
        exact whole.exists_ok_iff_of_add (yields left ofLeft) (yields right ofRight)
      · simp only [outcome_evaluate_some]
        intro n l r
        exact whole.toInt_eq_add (yields left ofLeft) (yields right ofRight)

theorem evaluate_cache_nonneg (fits : a.trace.Fits a.config) {outcome : AccessOutcome}
    {kind : AccessKind} {cacheName : Option String} {n : Int64}
    (evaluated : ((cache outcome kind false).evaluate a cacheName).outcome = .ok (.integer n)) :
    0 ≤ n.toInt := by
  cases cacheName with
  | none => exact absurd evaluated (outcome_evaluate_none outcome kind n)
  | some name =>
    rw [outcome_evaluate_some] at evaluated
    cases located : a.config.findCache name with
    | error e => exact absurd evaluated (countAccesses_of_unknown located (stats_ne_nil outcome kind) n)
    | ok found =>
      exact (countAccesses_yields_joinedRise fits located (outcome.stats kind)).toInt_nonneg evaluated

/-- On a loaded trace the accesses to a cache are its hits and its misses, for loads, for stores and for
both, and the loads and stores together are the loads and the stores, for hits, for misses and for all
accesses. None of these numbers is negative. -/
theorem evaluate_decomposes {raws : List RawSnapshot}
    (loaded : (Trace.ofRaw a.config raws).outcome = .ok a.trace) (cacheName : Option String) :
    (∀ kind, NumbersAddUp ((cache .any kind false).evaluate a cacheName).outcome
      ((cache .hits kind false).evaluate a cacheName).outcome
      ((cache .misses kind false).evaluate a cacheName).outcome) ∧
    (∀ outcome, NumbersAddUp ((cache outcome .both false).evaluate a cacheName).outcome
      ((cache outcome .loads false).evaluate a cacheName).outcome
      ((cache outcome .stores false).evaluate a cacheName).outcome) ∧
    ∀ outcome kind n,
      ((cache outcome kind false).evaluate a cacheName).outcome = .ok (.integer n) → 0 ≤ n.toInt := by
  have fits := Trace.fits_of_ofRaw loaded
  refine ⟨fun kind => ?_, fun outcome => ?_, fun outcome kind n => evaluate_cache_nonneg fits⟩
  · exact evaluate_addsUp_of_gauges fits (fun name => countGauges_any name kind) cacheName
  · exact evaluate_addsUp_of_gauges fits (fun name => .of_eq (countGauges_both name outcome)) cacheName

/-- The codes of the accesses that count both loads and stores. -/
example : ["CALDST", "CHLDST", "CMLDST"].map (fun code => parse? code.toList) =
    [some (cache .any .both false), some (cache .hits .both false), some (cache .misses .both false)] := by
  decide

end Characteristic

/-- The accesses to the last level in the two intervals in which no counter falls. -/
theorem Characteristic.evaluate_decomposes_sample :
    ∃ accesses : Int64,
      ((cache .any .both false).evaluate ⟨Sample.config, Sample.trace, .only (.ofList [1])⟩
        (some "l3")).outcome = .ok (.integer accesses) ∧
      accesses.toInt = 18 + 27 := by
  obtain ⟨parts, -, -⟩ := evaluate_decomposes (a := ⟨Sample.config, Sample.trace, .only (.ofList [1])⟩)
    Sample.loaded (some "l3")
  have hits : ((cache .hits .both false).evaluate ⟨Sample.config, Sample.trace, .only (.ofList [1])⟩
      (some "l3")).outcome = .ok (.integer 18) := by rfl
  have misses : ((cache .misses .both false).evaluate ⟨Sample.config, Sample.trace, .only (.ofList [1])⟩
      (some "l3")).outcome = .ok (.integer 27) := by rfl
  obtain ⟨accesses, evaluated⟩ := (parts .both).exists_ok_iff.2 ⟨_, _, hits, misses, by decide⟩
  exact ⟨accesses, evaluated, (parts .both).eq_sum _ _ _ evaluated hits misses⟩

end IntervalStats
