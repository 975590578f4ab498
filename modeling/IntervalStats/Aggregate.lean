import IntervalStats.Metric.Delta

/-!
# Sums over accepted intervals

The sum of a metric's changes over the intervals whose mode counts, in the order of the trace. The
shape of the metric is settled first, so a metric that the trace cannot give fails even if no
interval counts, and the sum over no interval is zero.
-/

namespace IntervalStats

namespace Trace

/-- The indices of the snapshots that close the intervals whose mode counts. -/
def accepted (trace : Trace) (modes : ModeSet) : List Nat :=
  ((trace.later.zipIdx 1).filter fun p => modes.contains p.1.mode).map (·.2)

/-- Sums changes over the accepted intervals. The changes may come from any computation in which sums
of quantities can be taken. -/
def sumIntervals {m : Type → Type} [Monad m] [MonadLiftT Outcome m] (trace : Trace)
    (modes : ModeSet) (shape : Shape) (delta : Nat → m Quantity) : m Quantity :=
  (trace.accepted modes).foldlM
    (fun sum index => do
      let change ← delta index
      liftM (sum.add change))
    (Quantity.zero shape)

end Trace

/-- The sum of a metric over the accepted intervals. -/
def aggregate (config : Config) (trace : Trace) (metric : Metric) (modes : ModeSet) :
    Outcome Quantity := do
  let shape ← Outcome.ofExcept (metric.shape config trace)
  trace.sumIntervals modes shape (metric.delta config trace)

/-- What sums are taken over: a trace of a configuration, and the modes that count. -/
structure Aggregator where
  config : Config
  trace : Trace
  modes : ModeSet

namespace Aggregator

/-- The sum of a metric. -/
def sum (a : Aggregator) (metric : Metric) : Logged Event Failure Quantity := do
  let total ← Logged.ofExcept (aggregate a.config a.trace metric a.modes)
  Logged.note (.aggregated metric a.modes total)
  return total

/-- The sum of a metric over all its elements. -/
def total (a : Aggregator) (metric : Metric) : Logged Event Failure Int64 := do
  let value ← a.sum metric
  Logged.ofExcept value.total

/-- An aggregator in brief. -/
def shown (a : Aggregator) : String :=
  s!"Aggregator \x7b intervals: {a.trace.intervals}, op_modes: " ++ a.modes.shown ++ ", .. \x7d"

end Aggregator

end IntervalStats
