import IntervalStats.Proofs.CountedMetric

/-!
# Counts of an aggregator

What the sums of an aggregator are in exact integers, for one core (`Aggregator.perCore`) and in total
(`Aggregator.total_yields`).
-/

namespace IntervalStats

namespace Aggregator

variable {a : Aggregator} {metric : Metric}

@[simp] theorem outcome_sum : (a.sum metric).outcome = aggregate a.config a.trace metric a.modes := by
  simp only [sum, Logged.outcome_bind, Logged.outcome_ofExcept, Logged.outcome_note,
    Logged.outcome_pure, ok_bind]
  exact bind_pure _

@[simp] theorem outcome_total :
    (a.total metric).outcome = aggregate a.config a.trace metric a.modes >>= Quantity.total := by
  simp only [total, Logged.outcome_bind, outcome_sum, Logged.outcome_ofExcept]

/-- What a metric counts for a core, zero if there is no such instance. -/
def perCore (a : Aggregator) (metric : Metric) (core : Nat) : Int :=
  if core < metric.instances a.config then a.trace.count a.config a.modes metric core else 0

/-- No gauge of the metric falls in an accepted interval. -/
def Rising (a : Aggregator) (metric : Metric) : Prop :=
  ∀ k < metric.instances a.config, ∀ gauge ∈ metric.gauges, a.trace.Rising a.config a.modes gauge k

theorem perCore_of_lt {core : Nat} (inside : core < metric.instances a.config) :
    a.perCore metric core = a.trace.count a.config a.modes metric core :=
  if_pos inside

theorem perCore_of_le {core : Nat} (beyond : metric.instances a.config ≤ core) :
    a.perCore metric core = 0 :=
  if_neg (Nat.not_lt.2 beyond)

theorem Rising.perCore_nonneg (rising : a.Rising metric) (core : Nat) : 0 ≤ a.perCore metric core := by
  rw [perCore]
  split
  · rename_i inside
    exact Trace.count_nonneg (rising core inside)
  · exact Int.le_refl 0

/-- Cores beyond the instances add nothing. -/
theorem sum_perCore {cores : Nat} (room : metric.instances a.config ≤ cores) :
    ∑ c ∈ Finset.range cores, a.perCore metric c =
      ∑ k ∈ Finset.range (metric.instances a.config), a.trace.count a.config a.modes metric k := by
  rw [← Finset.sum_subset (Finset.range_subset_range.2 room)]
  · apply Finset.sum_congr rfl
    intro k inside
    exact perCore_of_lt (Finset.mem_range.1 inside)
  · intro k _ beyond
    exact perCore_of_le (Nat.not_lt.1 (mt Finset.mem_range.2 beyond))

/-- The total of a metric is what it counts for all its instances. -/
theorem total_yields (fits : a.trace.Fits a.config) {shape : Shape}
    (shaped : metric.shape a.config a.trace = .ok shape) (counted : metric.gauges ≠ []) :
    Yields (a.total metric).outcome (a.Rising metric)
      (∑ k ∈ Finset.range (metric.instances a.config), a.trace.count a.config a.modes metric k) := by
  rw [outcome_total]
  exact (aggregate_counts fits counted shaped a.modes).total

section Cache

variable {name : String} {found : Nat × Cache} (located : a.config.findCache name = .ok found)
include located

theorem perCore_loads (core : Nat) :
    a.perCore (.cache name .loads) core =
      a.perCore (.cache name .loadHits) core + a.perCore (.cache name .loadMisses) core := by
  simp only [perCore, Metric.instances_cache located, Trace.count_loads]
  split <;> simp

theorem perCore_stores (core : Nat) :
    a.perCore (.cache name .stores) core =
      a.perCore (.cache name .storeHits) core + a.perCore (.cache name .storeMisses) core := by
  simp only [perCore, Metric.instances_cache located, Trace.count_stores]
  split <;> simp

end Cache

end Aggregator

end IntervalStats
