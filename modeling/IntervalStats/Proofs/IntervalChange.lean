import IntervalStats.Proofs.ElementwiseSum

/-!
# Changes depend on two snapshots

The change of a metric over an interval is a function of the counters and phases at its two ends:
neither the modes of the snapshots nor the rest of the trace matter, and the place of the interval in
the trace shows only in errors, which name it. `Metric.delta_agree` says so of two intervals of any two
traces, and `aggregate_congr` of two sums over the same places.
-/

namespace IntervalStats

/-! ## Outcomes at two places -/

/-- The same reason, except that a finding about the snapshot at one index may be about the one at
another. -/
inductive Failure.Moved (i j : Nat) : Failure → Failure → Prop where
  | same (e : Failure) : Moved i j e e
  | missing (component counter : String) :
      Moved i j (.error (.missingCounter component counter i)) (.error (.missingCounter component counter j))
  | decreased (component counter : String) :
      Moved i j (.error (.counterDecreased component counter i))
        (.error (.counterDecreased component counter j))
  | overflowed (component counter : String) :
      Moved i j (.error (.counterOverflowed component counter i))
        (.error (.counterOverflowed component counter j))

theorem Failure.Moved.eq {i : Nat} {e e' : Failure} (moved : Moved i i e e') : e = e' := by
  cases moved <;> rfl

/-- Both computations give the same value, or fail for the same reason at their two places. -/
inductive Outcome.Agree {α : Type} (i j : Nat) : Outcome α → Outcome α → Prop where
  | ok (a : α) : Agree i j (.ok a) (.ok a)
  | error {e e' : Failure} (moved : e.Moved i j e') : Agree i j (.error e) (.error e')

namespace Outcome.Agree

variable {α β γ : Type} {i j : Nat}

theorem refl (x : Outcome α) : Agree i j x x := by
  cases x with
  | ok a => exact .ok a
  | error e => exact .error (.same e)

theorem bind {x y : Outcome α} {f g : α → Outcome β} (first : Agree i j x y)
    (rest : ∀ a, Agree i j (f a) (g a)) : Agree i j (x >>= f) (y >>= g) := by
  cases first with
  | ok a => exact rest a
  | error moved => exact .error moved

theorem map {x y : Outcome α} (f : α → β) (first : Agree i j x y) : Agree i j (f <$> x) (f <$> y) := by
  cases first with
  | ok a => exact .ok (f a)
  | error moved => exact .error moved

theorem joinExact {join join' : α → β → Outcome γ} (each : ∀ a b, Agree i j (join a b) (join' a b))
    (as : List α) (bs : List β) :
    Agree i j (IntervalStats.joinExact join as bs) (IntervalStats.joinExact join' as bs) := by
  induction as, bs using joinExact.induct with
  | case1 => exact .ok []
  | case2 a as b bs ih =>
    simp only [IntervalStats.joinExact]
    exact (each a b).bind fun c => ih.bind fun cs => refl _
  | case3 as bs notNil notCons =>
    rw [joinExact.eq_3 join as bs notNil notCons, joinExact.eq_3 join' as bs notNil notCons]
    exact refl _

/-- At one place nothing is left to differ. -/
theorem eq {x y : Outcome α} (agree : Agree i i x y) : x = y := by
  cases agree with
  | ok a => rfl
  | error moved => rw [moved.eq]

theorem exists_ok_iff {x y : Outcome α} (agree : Agree i j x y) :
    (∃ a, x = .ok a) ↔ ∃ a, y = .ok a := by
  cases agree with
  | ok a => exact Iff.rfl
  | error moved => simp

theorem exact_eq {x y : Outcome Quantity} (agree : Agree i j x y) (k : Nat) :
    Outcome.exact x k = Outcome.exact y k := by
  cases agree <;> rfl

end Outcome.Agree

open Outcome (Agree)

/-! ## Intervals with the same ends -/

/-- The snapshots differ in their modes at most. -/
structure Snapshot.SameCounters (s t : Snapshot) : Prop where
  phase : s.phase = t.phase
  core : s.core = t.core
  caches : s.caches = t.caches

theorem Snapshot.SameCounters.refl (s : Snapshot) : s.SameCounters s :=
  ⟨rfl, rfl, rfl⟩

/-- Both traces have an interval at these places, with the same counters at both ends. -/
inductive Trace.SameInterval (trace : Trace) (i : Nat) (other : Trace) (j : Nat) : Prop where
  | intro {before after before' after' : Snapshot} (here : trace.interval i = .ok (before, after))
      (there : other.interval j = .ok (before', after')) (first : before.SameCounters before')
      (last : after.SameCounters after')

/-- An accepted interval has snapshots at both ends. -/
theorem Trace.Accepts.exists_ends {trace : Trace} {modes : ModeSet} {i : Nat}
    (accepts : trace.Accepts modes i) :
    ∃ j before after, j + 1 = i ∧ trace.snapshots[j]? = some before ∧
      trace.snapshots[j + 1]? = some after := by
  obtain ⟨j, rfl⟩ := Nat.exists_eq_add_of_le' accepts.1
  have inside : j + 1 < trace.snapshots.length := accepts.lt_size
  exact ⟨j, _, _, rfl, List.getElem?_eq_getElem (Nat.lt_of_succ_lt inside),
    List.getElem?_eq_getElem inside⟩

/-- An interval that counts is an interval of every trace that has the same snapshots some places later. -/
theorem Trace.Accepts.sameInterval {trace other : Trace} {modes : ModeSet} {i : Nat}
    (accepts : trace.Accepts modes i) (shift : Nat)
    (moved : ∀ j ≤ i, other.snapshots[j + shift]? = trace.snapshots[j]?) :
    other.SameInterval (i + shift) trace i := by
  obtain ⟨j, before, after, rfl, first, last⟩ := accepts.exists_ends
  have there : other.interval (j + 1 + shift) = .ok (before, after) := by
    rw [Nat.add_right_comm]
    apply interval_eq_ok
    · rw [moved j (Nat.le_succ j), first]
    · rw [Nat.add_right_comm, moved (j + 1) (Nat.le_refl _), last]
  exact .intro there (interval_eq_ok first last) (.refl _) (.refl _)

/-! ## Changes -/

theorem rises_agree (component counter : String) (i j : Nat) (before after : List UInt64) :
    Agree i j (rises component counter i before after) (rises component counter j before after) := by
  refine (Agree.joinExact (fun b a => ?_) before after).map Quantity.array
  unfold rise
  split
  · exact .error (.decreased component counter)
  · split
    · exact .ok _
    · exact .error (.overflowed component counter)

namespace Trace.SameInterval

variable {trace other : Trace} {i j : Nat} {config : Config}

theorem coreDelta_agree (same : trace.SameInterval i other j) (counter : CoreCounter) :
    Agree i j (trace.coreDelta config counter i) (other.coreDelta config counter j) := by
  obtain ⟨here, there, first, last⟩ := same
  simp only [coreDelta, here, there, ok_bind, first.core, last.core]
  split
  · exact rises_agree ..
  · exact .error (.missing _ _)

theorem cacheSumDelta_agree (same : trace.SameInterval i other j) (name : String) (sum : CacheSum) :
    Agree i j (trace.cacheSumDelta config name sum i) (other.cacheSumDelta config name sum j) := by
  obtain ⟨here, there, first, last⟩ := same
  simp only [cacheSumDelta, here, there, ok_bind, Snapshot.cacheSum, Snapshot.cache, first.caches,
    last.caches]
  refine (Agree.refl _).bind fun found => (Agree.refl _).bind fun total => ?_
  exact (Agree.refl _).bind fun next => rises_agree ..

theorem cacheDelta_agree (same : trace.SameInterval i other j) (name : String) (stat : CacheStat) :
    Agree i j (trace.cacheDelta config name stat i) (other.cacheDelta config name stat j) := by
  have pair (hits misses : CacheSum) : Agree i j (trace.cachePairDelta config name hits misses i)
      (other.cachePairDelta config name hits misses j) :=
    (same.cacheSumDelta_agree name hits).bind fun _ =>
      (same.cacheSumDelta_agree name misses).bind fun _ => .refl _
  cases stat with
  | loads => exact pair _ _
  | stores => exact pair _ _
  | _ => exact same.cacheSumDelta_agree name _

theorem intervalCycles_agree (same : trace.SameInterval i other j) :
    Agree i j (trace.intervalCycles config i) (other.intervalCycles config j) := by
  obtain ⟨here, there, first, last⟩ := same
  simp only [intervalCycles, here, there, ok_bind, first.phase, last.phase]
  split
  · exact .error (.decreased _ _)
  · exact .refl _

end Trace.SameInterval

/-- A metric changes alike over intervals with the same counters at both ends. -/
theorem Metric.delta_agree {trace other : Trace} {i j : Nat} (same : trace.SameInterval i other j)
    (config : Config) (metric : Metric) :
    Agree i j (metric.delta config trace i) (metric.delta config other j) := by
  cases metric with
  | uops kind =>
    cases kind with
    | load => exact same.cacheDelta_agree uopCache .loads
    | store => exact same.cacheDelta_agree uopCache .stores
    | _ => exact same.coreDelta_agree _
  | cache name stat => exact same.cacheDelta_agree name stat
  | elapsedTime => exact same.intervalCycles_agree.bind fun _ => .refl _
  | idleElapsedTime =>
    exact same.intervalCycles_agree.bind fun _ => (same.coreDelta_agree _).bind fun _ => .refl _
  | _ => exact same.coreDelta_agree _

/-! ## Sums -/

/-- The trace matters to the shape of a metric by the counters that it reports only. -/
theorem Metric.shape_congr {config : Config} {trace other : Trace}
    (reported : ∀ c, trace.reports c = other.reports c) (metric : Metric) :
    metric.shape config trace = metric.shape config other := by
  simp only [shape, reported]

theorem Trace.sumIntervals_congr {trace other : Trace} {modes modes' : ModeSet} {shape : Shape}
    {delta delta' : Nat → Outcome Quantity} (places : trace.accepted modes = other.accepted modes')
    (same : ∀ i, trace.Accepts modes i → delta i = delta' i) :
    trace.sumIntervals modes shape delta = other.sumIntervals modes' shape delta' := by
  unfold sumIntervals
  rw [← places, List.foldlM_eq_foldl, List.foldlM_eq_foldl]
  apply List.foldl_ext
  intro sum i member
  rw [same i (mem_accepted.1 member)]

/-- Sums over the same places of two traces are the same, failures included, if the intervals at these
places have the same counters at both ends. -/
theorem aggregate_congr {config : Config} {trace other : Trace} {modes modes' : ModeSet}
    (reported : ∀ c, trace.reports c = other.reports c)
    (places : trace.accepted modes = other.accepted modes')
    (same : ∀ i, trace.Accepts modes i → trace.SameInterval i other i) (metric : Metric) :
    aggregate config trace metric modes = aggregate config other metric modes' := by
  unfold aggregate
  rw [metric.shape_congr reported]
  congr 1
  funext shape
  apply Trace.sumIntervals_congr places
  intro i accepts
  exact (metric.delta_agree (same i accepts) config).eq

end IntervalStats
