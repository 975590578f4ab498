import IntervalStats.Proofs.CountedMetric
import IntervalStats.Proofs.ElementwiseSum

/-!
# Fewer modes

A mode set that accepts fewer intervals of a trace takes smaller sums. Its running totals are not those
of the larger set, and they begin elsewhere, but no change of a metric that counts is negative: the exact
sum over fewer intervals is bounded by that over more, and both the success and the result of a sum are
settled by the exact sum. So `aggregate_of_narrows` needs no comparison of the two runs step by step. Times
are left out: an idle time can be negative, and then leaving out an interval can make a total overflow.
-/

namespace IntervalStats

namespace Trace

/-- Every interval of the trace that counts for one mode set counts for another. -/
def Narrows (trace : Trace) (narrow wide : ModeSet) : Prop :=
  ∀ s ∈ trace.later, narrow.contains s.mode = true → wide.contains s.mode = true

instance (trace : Trace) (narrow wide : ModeSet) : Decidable (trace.Narrows narrow wide) :=
  inferInstanceAs (Decidable (∀ s ∈ trace.later, _))

variable {trace : Trace} {config : Config} {narrow wide : ModeSet} {metric : Metric} {gauge : Gauge}
  {i k : Nat}

theorem Narrows.accepts (narrows : trace.Narrows narrow wide) (accepts : trace.Accepts narrow i) :
    trace.Accepts wide i := by
  obtain ⟨j, s, rfl, present, counts⟩ := accepts_iff.1 accepts
  exact accepts_iff.2 ⟨j, s, rfl, present, narrows s (List.mem_of_getElem? present) counts⟩

theorem Narrows.subset (narrows : trace.Narrows narrow wide) :
    trace.acceptedIntervals narrow ⊆ trace.acceptedIntervals wide := by
  intro i accepted
  exact mem_acceptedIntervals.2 (narrows.accepts (mem_acceptedIntervals.1 accepted))

theorem Rising.of_narrows (rising : trace.Rising config wide gauge k)
    (narrows : trace.Narrows narrow wide) : trace.Rising config narrow gauge k := by
  intro i accepted
  exact rising i (narrows.subset accepted)

theorem Rising.totalRise_le (rising : trace.Rising config wide gauge k)
    (narrows : trace.Narrows narrow wide) :
    trace.totalRise config narrow gauge k ≤ trace.totalRise config wide gauge k := by
  apply Finset.sum_le_sum_of_subset_of_nonneg narrows.subset
  intro i accepted _
  have step := rising i accepted
  omega

theorem count_le (rising : ∀ gauge ∈ metric.gauges, trace.Rising config wide gauge k)
    (narrows : trace.Narrows narrow wide) :
    trace.count config narrow metric k ≤ trace.count config wide metric k := by
  apply List.sum_le_sum
  intro gauge listed
  exact (rising gauge listed).totalRise_le narrows

end Trace

/-- If a metric that counts has a sum over some intervals, then it has one over any part of them, with as
many numbers, none of which is negative or exceeds that of the larger sum. -/
theorem aggregate_of_narrows {config : Config} {trace : Trace} {raws : List RawSnapshot}
    {narrow wide : ModeSet} {metric : Metric} {b : Quantity}
    (loaded : (Trace.ofRaw config raws).outcome = .ok trace) (notElapsed : metric ≠ .elapsedTime)
    (notIdle : metric ≠ .idleElapsedTime) (narrows : trace.Narrows narrow wide)
    (summed : aggregate config trace metric wide = .ok b) :
    ∃ a, aggregate config trace metric narrow = .ok a ∧ a.shape = b.shape ∧
      ∀ k < b.shape.size, 0 ≤ a.exact k ∧ a.exact k ≤ b.exact k := by
  have counted := Metric.gauges_ne_nil notElapsed notIdle
  have fits := Trace.fits_of_ofRaw loaded
  obtain ⟨shape, shaped⟩ := shape_of_aggregate_eq_ok summed
  obtain ⟨rising, exactB⟩ := counts_of_aggregate_eq_ok fits counted summed
  obtain ⟨shapeB, countB⟩ := Quantity.isExact_iff.1 exactB
  have counts := aggregate_counts fits counted shaped narrow
  have bounded : ∀ k < metric.instances config,
      trace.count config narrow metric k ≤ trace.count config wide metric k := fun k inside =>
    Trace.count_le (rising k inside) narrows
  have small : ∀ k < metric.instances config, trace.count config narrow metric k ≤ 2 ^ 63 - 1 := by
    intro k inside
    have low := bounded k inside
    have high := (exactB.fits inside).2
    omega
  obtain ⟨a, found⟩ := counts.exists_ok_iff.2
    ⟨fun k inside gauge listed => (rising k inside gauge listed).of_narrows narrows, small⟩
  obtain ⟨shapeA, countA⟩ := Quantity.isExact_iff.1 ((counts.eq_ok_iff a).1 found).2
  refine ⟨a, found, shapeA.trans shapeB.symm, fun k inside => ⟨counts.exact_nonneg found k, ?_⟩⟩
  rw [shapeB] at inside
  rw [countA k inside, countB k inside]
  exact bounded k inside

/-- Mode 5 does not occur in the sample, so modes 1 and 5 accept fewer intervals than modes 0 and 1. -/
theorem aggregate_of_narrows_sample :
    ∃ a b : Quantity,
      aggregate Sample.config Sample.trace .instructions (.only (.ofList [0, 1])) = .ok b ∧
      aggregate Sample.config Sample.trace .instructions (.only (.ofList [1, 5])) = .ok a ∧
      a.shape = b.shape ∧ b.exact 1 = 224 ∧ a.exact 1 ≤ b.exact 1 := by
  have narrows : Sample.trace.Narrows (.only (.ofList [1, 5])) (.only (.ofList [0, 1])) := by
    decide
  have whole : aggregate Sample.config Sample.trace .instructions (.only (.ofList [0, 1])) =
      .ok (.array [112, 224]) := by rfl
  obtain ⟨a, found, sameShape, bounds⟩ :=
    aggregate_of_narrows Sample.loaded (by decide) (by decide) narrows whole
  exact ⟨a, _, whole, found, sameShape, rfl, (bounds 1 (by decide)).2⟩

end IntervalStats
