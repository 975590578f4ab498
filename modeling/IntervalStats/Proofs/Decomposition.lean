import IntervalStats.Proofs.CountedMetric
import IntervalStats.Proofs.ElementwiseSum

/-!
# Hits and misses

Loads and stores are hits and misses together. Each interval adds the two and the totals are summed,
while hits and misses apart are summed first; `aggregate_decomposes` says that both ways give the same
numbers and fail on the same traces, so no overflow inside an interval is lost or made up by the order
of the additions. Load and store micro-ops are the accesses to one of the caches, failures included.
-/

namespace IntervalStats

/-- A computation adds up two others: it succeeds exactly if both do and no sum of their numbers exceeds
the greatest signed word, and then its numbers are those sums. -/
structure AddsUp (whole left right : Outcome Quantity) : Prop where
  exists_ok_iff : (∃ q, whole = .ok q) ↔
    ∃ a b, left = .ok a ∧ right = .ok b ∧ ∀ k < a.shape.size, a.exact k + b.exact k ≤ 2 ^ 63 - 1
  isSum : ∀ q a b, whole = .ok q → left = .ok a → right = .ok b → q.IsSum a b

theorem Measures.addsUp {x y z : Outcome Quantity} {n : Nat} {P Q : Nat → Prop} {f g : Nat → Int}
    (whole : Measures z n (fun k => P k ∧ Q k) fun k => f k + g k) (left : Measures x n P f)
    (right : Measures y n Q g) : AddsUp z x y := by
  refine ⟨?_, fun q a b => whole.isSum left right⟩
  rw [whole.exists_ok_iff_sumFits left right]
  constructor
  · rintro ⟨a, b, gotA, gotB, -, fits⟩
    refine ⟨a, b, gotA, gotB, fun k inside => ?_⟩
    have high := (fits k inside).2
    omega
  · rintro ⟨a, b, gotA, gotB, small⟩
    refine ⟨a, b, gotA, gotB, (left.shape_eq gotA).trans (right.shape_eq gotB).symm, fun k inside => ?_⟩
    -- No number is negative, so a sum that is no word is too large.
    have lowA := left.exact_nonneg gotA k
    have lowB := right.exact_nonneg gotB k
    have high := small k inside
    constructor <;> omega

variable {config : Config} {trace : Trace}

theorem aggregate_of_unknown {name : String} {e : Error} (unknown : config.findCache name = .error e)
    (stat : CacheStat) (modes : ModeSet) :
    aggregate config trace (.cache name stat) modes = fail e := by
  have unshaped : Metric.shape (.cache name stat) config trace = .error e := by
    simp only [Metric.shape, Metric.coreCounter?, unknown]
    rfl
  rw [aggregate, unshaped]
  rfl

/-- A count of a cache whose gauges are those of two others together adds these up. -/
theorem aggregate_addsUp (fits : trace.Fits config) {name : String} {whole left right : CacheStat}
    (together : Metric.gauges (.cache name whole) =
      Metric.gauges (.cache name left) ++ Metric.gauges (.cache name right)) (modes : ModeSet) :
    AddsUp (aggregate config trace (.cache name whole) modes)
      (aggregate config trace (.cache name left) modes)
      (aggregate config trace (.cache name right) modes) := by
  cases located : config.findCache name with
  | error e => constructor <;> simp [aggregate_of_unknown located, fail]
  | ok found =>
    have counts (stat : CacheStat) := aggregate_counts fits (Metric.gauges_cache_ne_nil name stat)
      (Metric.shape_cache located stat) modes
    simp only [Metric.instances_cache located] at counts
    refine Measures.addsUp ((counts whole).congr (fun k _ => ?_) fun k _ => ?_) (counts left) (counts right)
    · rw [together, List.forall_mem_append]
    · simp only [Trace.count, together, List.map_append, List.sum_append]

/-- The loads of a cache are its load hits and load misses, and its stores are its store hits and store
misses, whichever is summed first. The load and store micro-ops are the loads and stores of the
first-level data cache. -/
theorem aggregate_decomposes {raws : List RawSnapshot}
    (loaded : (Trace.ofRaw config raws).outcome = .ok trace) (modes : ModeSet) :
    (∀ name,
      AddsUp (aggregate config trace (.cache name .loads) modes)
        (aggregate config trace (.cache name .loadHits) modes)
        (aggregate config trace (.cache name .loadMisses) modes) ∧
      AddsUp (aggregate config trace (.cache name .stores) modes)
        (aggregate config trace (.cache name .storeHits) modes)
        (aggregate config trace (.cache name .storeMisses) modes)) ∧
    aggregate config trace (.uops .load) modes = aggregate config trace (.cache "l1d" .loads) modes ∧
    aggregate config trace (.uops .store) modes = aggregate config trace (.cache "l1d" .stores) modes := by
  have fits := Trace.fits_of_ofRaw loaded
  exact ⟨fun name => ⟨aggregate_addsUp fits rfl modes, aggregate_addsUp fits rfl modes⟩, rfl, rfl⟩

/-- The loads of the last level over the two intervals in which no counter falls. -/
theorem aggregate_decomposes_sample :
    ∃ loads hits misses : Quantity,
      aggregate Sample.config Sample.trace (.cache "l3" .loads) (.only (.ofList [1])) = .ok loads ∧
      aggregate Sample.config Sample.trace (.cache "l3" .loadHits) (.only (.ofList [1])) = .ok hits ∧
      aggregate Sample.config Sample.trace (.cache "l3" .loadMisses) (.only (.ofList [1])) = .ok misses ∧
      loads.IsSum hits misses ∧ loads.exact 0 = 18 := by
  obtain ⟨caches, -, -⟩ := aggregate_decomposes Sample.loaded (.only (.ofList [1]))
  have ofLoads := (caches "l3").1
  have hits : aggregate Sample.config Sample.trace (.cache "l3" .loadHits) (.only (.ofList [1])) =
      .ok (.array [9]) := by rfl
  have misses : aggregate Sample.config Sample.trace (.cache "l3" .loadMisses) (.only (.ofList [1])) =
      .ok (.array [9]) := by rfl
  obtain ⟨loads, summed⟩ := ofLoads.exists_ok_iff.2 ⟨_, _, hits, misses, by decide⟩
  have sum := ofLoads.isSum _ _ _ summed hits misses
  exact ⟨loads, _, _, summed, hits, misses, sum, sum.exact_eq 0⟩

end IntervalStats
