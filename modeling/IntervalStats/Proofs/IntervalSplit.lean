import IntervalStats.Proofs.CountedMetric
import IntervalStats.Proofs.IntervalChange

/-!
# Splitting a sum

A sum over intervals can be taken in two parts if every interval that counts for the whole counts for
exactly one of the parts, with the same counters at both ends (`Aggregator.Splits`). The parts run in
an order of their own, so their running totals are not those of the whole. The totals add up all the
same (`Aggregator.Splits.partsAddUp`): what is found for the whole is the sum of what is found for the
parts, and a metric that counts is found for the whole exactly if it is for both and can be added. An
idle time can be negative, so there the order of the intervals decides whether a total overflows.
-/

namespace IntervalStats

/-- The sum of a metric that counts, in terms of its changes. -/
theorem aggregate_measures_changes {config : Config} {trace : Trace} {metric : Metric} {shape : Shape}
    (fits : trace.Fits config) (counted : metric.gauges ≠ [])
    (shaped : metric.shape config trace = .ok shape) (modes : ModeSet) :
    Measures (aggregate config trace metric modes) (metric.instances config)
      (fun _ => ∀ i ∈ trace.acceptedIntervals modes, ∃ q, metric.delta config trace i = .ok q)
      fun k => ∑ i ∈ trace.acceptedIntervals modes, Outcome.exact (metric.delta config trace i) k := by
  apply aggregate_measures_of_delta (Metric.shape_eq_instances counted shaped ▸ shaped)
  intro i accepts
  exact (Metric.delta_counts fits counted shaped accepts).self

namespace Aggregator

/-- Sums of the metric that are found for the whole and both parts add up. Unless the metric is a time,
the sum for the whole is found exactly if those for the parts are and their exact sum fits. -/
structure PartsAddUp (whole left right : Aggregator) (metric : Metric) : Prop where
  isSum : ∀ q a b, aggregate whole.config whole.trace metric whole.modes = .ok q →
    aggregate left.config left.trace metric left.modes = .ok a →
    aggregate right.config right.trace metric right.modes = .ok b → q.IsSum a b
  exists_ok_iff : metric ≠ .elapsedTime → metric ≠ .idleElapsedTime →
    ((∃ q, aggregate whole.config whole.trace metric whole.modes = .ok q) ↔
      ∃ a b, aggregate left.config left.trace metric left.modes = .ok a ∧
        aggregate right.config right.trace metric right.modes = .ok b ∧ a.SumFits b)

/-- The intervals that count for the part are intervals of the whole, a fixed number of places later, and
both are about the same system and the same counters. -/
structure IsPart (part whole : Aggregator) (shift : Nat) : Prop where
  config_eq : part.config = whole.config
  reports_eq : ∀ c, part.trace.reports c = whole.trace.reports c
  sameInterval : ∀ i, part.trace.Accepts part.modes i → whole.trace.SameInterval (i + shift) part.trace i

namespace IsPart

variable {part whole : Aggregator} {shift : Nat} {metric : Metric}

theorem delta_agree (isPart : IsPart part whole shift) {i : Nat}
    (accepted : i ∈ part.trace.acceptedIntervals part.modes) :
    Outcome.Agree (i + shift) i (metric.delta whole.config whole.trace (i + shift))
      (metric.delta part.config part.trace i) := by
  rw [isPart.config_eq]
  exact metric.delta_agree (isPart.sameInterval i (Trace.mem_acceptedIntervals.1 accepted)) _

theorem shape_eq (isPart : IsPart part whole shift) (metric : Metric) :
    metric.shape part.config part.trace = metric.shape whole.config whole.trace := by
  rw [isPart.config_eq, metric.shape_congr isPart.reports_eq]

theorem measures_changes (isPart : IsPart part whole shift) (fits : part.trace.Fits part.config)
    (counted : metric.gauges ≠ []) {shape : Shape}
    (shaped : metric.shape whole.config whole.trace = .ok shape) :
    Measures (aggregate part.config part.trace metric part.modes) (metric.instances whole.config)
      (fun _ => ∀ i ∈ part.trace.acceptedIntervals part.modes,
        ∃ q, metric.delta part.config part.trace i = .ok q)
      fun k => ∑ i ∈ part.trace.acceptedIntervals part.modes,
        Outcome.exact (metric.delta part.config part.trace i) k := by
  rw [← congrArg metric.instances isPart.config_eq]
  exact aggregate_measures_changes fits counted ((isPart.shape_eq metric).trans shaped) part.modes

end IsPart

/-- The intervals that count for the whole are those of the two parts, none of them in both. -/
structure Splits (whole left right : Aggregator) (shift : Nat) : Prop where
  first : left.IsPart whole 0
  second : right.IsPart whole shift
  accepts_iff : ∀ i, whole.trace.Accepts whole.modes i ↔ left.trace.Accepts left.modes i ∨
    ∃ j, right.trace.Accepts right.modes j ∧ j + shift = i
  disjoint : ∀ j, right.trace.Accepts right.modes j → ¬left.trace.Accepts left.modes (j + shift)

namespace Splits

variable {whole left right : Aggregator} {shift : Nat} {metric : Metric}

theorem forall_accepted_iff (splits : Splits whole left right shift) {P : Nat → Prop} :
    (∀ i ∈ whole.trace.acceptedIntervals whole.modes, P i) ↔
      (∀ i ∈ left.trace.acceptedIntervals left.modes, P i) ∧
        ∀ j ∈ right.trace.acceptedIntervals right.modes, P (j + shift) := by
  simp only [Trace.mem_acceptedIntervals, splits.accepts_iff]
  constructor
  · intro every
    exact ⟨fun i accepts => every i (.inl accepts), fun j accepts => every _ (.inr ⟨j, accepts, rfl⟩)⟩
  · rintro ⟨first, second⟩ i (accepts | ⟨j, accepts, rfl⟩)
    · exact first i accepts
    · exact second j accepts

theorem sum_accepted (splits : Splits whole left right shift) (f : Nat → Int) :
    ∑ i ∈ whole.trace.acceptedIntervals whole.modes, f i =
      ∑ i ∈ left.trace.acceptedIntervals left.modes, f i +
        ∑ j ∈ right.trace.acceptedIntervals right.modes, f (j + shift) := by
  have together : whole.trace.acceptedIntervals whole.modes =
      left.trace.acceptedIntervals left.modes ∪
        (right.trace.acceptedIntervals right.modes).map (addRightEmbedding shift) := by
    ext i
    simp only [Finset.mem_union, Finset.mem_map, addRightEmbedding_apply, Trace.mem_acceptedIntervals,
      splits.accepts_iff]
  have apart : Disjoint (left.trace.acceptedIntervals left.modes)
      ((right.trace.acceptedIntervals right.modes).map (addRightEmbedding shift)) := by
    rw [Finset.disjoint_right]
    intro i moved first
    obtain ⟨j, second, rfl⟩ := Finset.mem_map.1 moved
    exact splits.disjoint j (Trace.mem_acceptedIntervals.1 second) (Trace.mem_acceptedIntervals.1 first)
  rw [together, Finset.sum_union apart, Finset.sum_map]
  rfl

/-- The exact changes of the whole are those of the parts. -/
theorem sum_changes (splits : Splits whole left right shift) (k : Nat) :
    ∑ i ∈ whole.trace.acceptedIntervals whole.modes,
        Outcome.exact (metric.delta whole.config whole.trace i) k =
      ∑ i ∈ left.trace.acceptedIntervals left.modes,
          Outcome.exact (metric.delta left.config left.trace i) k +
        ∑ j ∈ right.trace.acceptedIntervals right.modes,
          Outcome.exact (metric.delta right.config right.trace j) k := by
  rw [splits.sum_accepted]
  congr 1
  · exact Finset.sum_congr rfl fun i accepted => (splits.first.delta_agree accepted).exact_eq k
  · exact Finset.sum_congr rfl fun j accepted => (splits.second.delta_agree accepted).exact_eq k

/-- The whole has a change in each of its intervals exactly if both parts do. -/
theorem changes_iff (splits : Splits whole left right shift) :
    (∀ i ∈ whole.trace.acceptedIntervals whole.modes,
        ∃ q, metric.delta whole.config whole.trace i = .ok q) ↔
      (∀ i ∈ left.trace.acceptedIntervals left.modes,
        ∃ q, metric.delta left.config left.trace i = .ok q) ∧
      ∀ j ∈ right.trace.acceptedIntervals right.modes,
        ∃ q, metric.delta right.config right.trace j = .ok q := by
  rw [splits.forall_accepted_iff]
  apply and_congr
  · exact forall₂_congr fun i accepted => (splits.first.delta_agree accepted).exists_ok_iff
  · exact forall₂_congr fun j accepted => (splits.second.delta_agree accepted).exists_ok_iff

/-- Sums of any metric that are found add up. -/
theorem isSum (splits : Splits whole left right shift) {q a b : Quantity}
    (gotWhole : aggregate whole.config whole.trace metric whole.modes = .ok q)
    (gotLeft : aggregate left.config left.trace metric left.modes = .ok a)
    (gotRight : aggregate right.config right.trace metric right.modes = .ok b) : q.IsSum a b := by
  obtain ⟨shaped, exact⟩ := exact_of_aggregate_eq_ok gotWhole
  obtain ⟨shapedLeft, exactLeft⟩ := exact_of_aggregate_eq_ok gotLeft
  obtain ⟨shapedRight, exactRight⟩ := exact_of_aggregate_eq_ok gotRight
  rw [splits.first.shape_eq, shaped, Except.ok.injEq] at shapedLeft
  rw [splits.second.shape_eq, shaped, Except.ok.injEq] at shapedRight
  refine ⟨shapedLeft.symm, shapedRight.symm, fun k _ => ?_⟩
  rw [exact, exactLeft, exactRight, splits.sum_changes]

/-- The sum of a metric that counts is found exactly if those of the parts are and can be added. -/
theorem exists_ok_iff (splits : Splits whole left right shift) (fits : whole.trace.Fits whole.config)
    (leftFits : left.trace.Fits left.config) (rightFits : right.trace.Fits right.config)
    (counted : metric.gauges ≠ []) :
    (∃ q, aggregate whole.config whole.trace metric whole.modes = .ok q) ↔
      ∃ a b, aggregate left.config left.trace metric left.modes = .ok a ∧
        aggregate right.config right.trace metric right.modes = .ok b ∧ a.SumFits b := by
  cases shaped : metric.shape whole.config whole.trace with
  | error e =>
    have unshaped := (splits.first.shape_eq metric).trans shaped
    simp [aggregate, shaped, unshaped, Outcome.ofExcept, fail, bind, Except.bind]
  | ok shape =>
    have sums := aggregate_measures_changes fits counted shaped whole.modes
    simp only [splits.changes_iff, splits.sum_changes] at sums
    exact sums.exists_ok_iff_sumFits (splits.first.measures_changes leftFits counted shaped)
      (splits.second.measures_changes rightFits counted shaped)

theorem partsAddUp (splits : Splits whole left right shift) (fits : whole.trace.Fits whole.config)
    (leftFits : left.trace.Fits left.config) (rightFits : right.trace.Fits right.config)
    (metric : Metric) : PartsAddUp whole left right metric where
  isSum _ _ _ := splits.isSum
  exists_ok_iff notElapsed notIdle :=
    splits.exists_ok_iff fits leftFits rightFits (Metric.gauges_ne_nil notElapsed notIdle)

end Splits

end Aggregator

end IntervalStats
