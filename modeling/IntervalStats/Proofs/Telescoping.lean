import IntervalStats.Proofs.ExactSum

/-!
# Telescoping

A sum of changes over accepted intervals depends only on the readings at the ends of the runs of
consecutive accepted intervals. `Trace.runs` is the set of these runs, told by their two ends: they
are disjoint and make up the accepted intervals, and inside a run all readings but the first and the
last cancel. With every mode accepted there is one run, from the baseline to the last snapshot.
-/

namespace IntervalStats

namespace Trace

variable {trace : Trace} {modes : ModeSet} {i : Nat}

/-! ## Runs -/

/-- All intervals from the first to the last count, and neither the one before nor the one after. -/
def IsRun (trace : Trace) (modes : ModeSet) (run : Nat × Nat) : Prop :=
  run.1 ≤ run.2 ∧ (∀ i ∈ Finset.Icc run.1 run.2, trace.Accepts modes i) ∧
    ¬trace.Accepts modes (run.1 - 1) ∧ ¬trace.Accepts modes (run.2 + 1)

instance (run : Nat × Nat) : Decidable (trace.IsRun modes run) :=
  inferInstanceAs (Decidable (_ ∧ _))

/-- The maximal runs of consecutive accepted intervals. -/
def runs (trace : Trace) (modes : ModeSet) : Finset (Nat × Nat) :=
  (Finset.range trace.size ×ˢ Finset.range trace.size).filter (trace.IsRun modes)

theorem IsRun.accepts {run : Nat × Nat} (isRun : trace.IsRun modes run) (low : run.1 ≤ i)
    (high : i ≤ run.2) : trace.Accepts modes i :=
  isRun.2.1 i (Finset.mem_Icc.2 ⟨low, high⟩)

theorem mem_runs {run : Nat × Nat} : run ∈ trace.runs modes ↔ trace.IsRun modes run := by
  rw [runs, Finset.mem_filter, Finset.mem_product, Finset.mem_range, Finset.mem_range]
  constructor
  · intro member
    exact member.2
  · intro isRun
    have first := isRun.accepts (Nat.le_refl _) isRun.1
    have last := isRun.accepts isRun.1 (Nat.le_refl _)
    exact ⟨⟨first.lt_size, last.lt_size⟩, isRun⟩

theorem not_accepts_zero : ¬trace.Accepts modes 0 := by
  intro accepts
  exact absurd accepts.1 (by decide)

/-- Going back from an accepted interval reaches the start of its run. -/
theorem exists_first (accepts : trace.Accepts modes i) :
    ∃ first ≤ i, (∀ j, first ≤ j → j ≤ i → trace.Accepts modes j) ∧
      ¬trace.Accepts modes (first - 1) := by
  induction i with
  | zero => exact absurd accepts not_accepts_zero
  | succ i ih =>
    by_cases previous : trace.Accepts modes i
    · obtain ⟨first, le, all, before⟩ := ih previous
      refine ⟨first, by omega, fun j low high => ?_, before⟩
      by_cases top : j = i + 1
      · rw [top]
        exact accepts
      · exact all j low (by omega)
    · refine ⟨i + 1, Nat.le_refl _, fun j low high => ?_, previous⟩
      rw [show j = i + 1 by omega]
      exact accepts

/-- Going on from an accepted interval reaches the end of its run, at the latest with the trace. -/
theorem exists_last (accepts : trace.Accepts modes i) :
    ∃ last, i ≤ last ∧ (∀ j, i ≤ j → j ≤ last → trace.Accepts modes j) ∧
      ¬trace.Accepts modes (last + 1) := by
  obtain ⟨rest, size⟩ := Nat.exists_eq_add_of_le accepts.lt_size.le
  induction rest generalizing i with
  | zero =>
    have inside := accepts.lt_size
    omega
  | succ rest ih =>
    by_cases next : trace.Accepts modes (i + 1)
    · obtain ⟨last, le, all, after⟩ := ih next (by omega)
      refine ⟨last, by omega, fun j low high => ?_, after⟩
      by_cases bottom : j = i
      · rw [bottom]
        exact accepts
      · exact all j (by omega) high
    · refine ⟨i, Nat.le_refl _, fun j low high => ?_, next⟩
      rw [show j = i by omega]
      exact accepts

theorem exists_run (accepts : trace.Accepts modes i) :
    ∃ run ∈ trace.runs modes, i ∈ Finset.Icc run.1 run.2 := by
  obtain ⟨first, low, down, before⟩ := exists_first accepts
  obtain ⟨last, high, up, after⟩ := exists_last accepts
  have isRun : trace.IsRun modes (first, last) := by
    refine ⟨low.trans high, fun j member => ?_, before, after⟩
    obtain ⟨le, ge⟩ := Finset.mem_Icc.1 member
    by_cases left : j ≤ i
    · exact down j le left
    · exact up j (by omega) ge
  exact ⟨(first, last), mem_runs.2 isRun, Finset.mem_Icc.2 ⟨low, high⟩⟩

/-- No run reaches over the ends of a run that it meets. -/
theorem IsRun.within {run other : Nat × Nat} (isRun : trace.IsRun modes run)
    (isOther : trace.IsRun modes other) (inRun : i ∈ Finset.Icc run.1 run.2)
    (inOther : i ∈ Finset.Icc other.1 other.2) : run.1 ≤ other.1 ∧ other.2 ≤ run.2 := by
  rw [Finset.mem_Icc] at inRun inOther
  constructor
  · apply Nat.le_of_not_lt
    intro reaches
    exact isRun.2.2.1 (isOther.accepts (by omega) (by omega))
  · apply Nat.le_of_not_lt
    intro reaches
    exact isRun.2.2.2 (isOther.accepts (by omega) (by omega))

theorem IsRun.eq_of_mem {run other : Nat × Nat} (isRun : trace.IsRun modes run)
    (isOther : trace.IsRun modes other) (inRun : i ∈ Finset.Icc run.1 run.2)
    (inOther : i ∈ Finset.Icc other.1 other.2) : run = other := by
  have inner := isRun.within isOther inRun inOther
  have outer := isOther.within isRun inOther inRun
  exact Prod.ext (Nat.le_antisymm inner.1 outer.1) (Nat.le_antisymm outer.2 inner.2)

theorem acceptedIntervals_eq_biUnion :
    trace.acceptedIntervals modes = (trace.runs modes).biUnion fun run => Finset.Icc run.1 run.2 := by
  ext i
  rw [mem_acceptedIntervals, Finset.mem_biUnion]
  constructor
  · exact exists_run
  · rintro ⟨run, member, inside⟩
    exact (mem_runs.1 member).2.1 i inside

theorem runs_disjoint : ((trace.runs modes : Finset (Nat × Nat)) : Set (Nat × Nat)).PairwiseDisjoint
    fun run => Finset.Icc run.1 run.2 := by
  intro run member other member' different
  refine Finset.disjoint_left.2 fun i inRun inOther => different ?_
  exact (mem_runs.1 member).eq_of_mem (mem_runs.1 member') inRun inOther

/-! ## Sums over runs -/

/-- All readings inside a stretch of intervals cancel. -/
theorem sum_Icc_change (c : Nat → Int) {first last : Nat} (le : first ≤ last) :
    ∑ i ∈ Finset.Icc first last, (c i - c (i - 1)) = c last - c (first - 1) := by
  induction last, le using Nat.le_induction with
  | base => simp
  | succ last le ih =>
    rw [Finset.sum_Icc_succ_top (by omega), ih, Nat.add_sub_cancel]
    omega

theorem sum_accepted_change (c : Nat → Int) :
    ∑ i ∈ trace.acceptedIntervals modes, (c i - c (i - 1)) =
      ∑ run ∈ trace.runs modes, (c run.2 - c (run.1 - 1)) := by
  rw [acceptedIntervals_eq_biUnion, Finset.sum_biUnion runs_disjoint]
  apply Finset.sum_congr rfl
  intro run member
  exact sum_Icc_change c (mem_runs.1 member).1

/-! ## Every mode accepted -/

theorem accepts_all : trace.Accepts .all i ↔ 1 ≤ i ∧ i ≤ trace.intervals := by
  simp [Accepts, ModeSet.Counts, intervals, snapshots, ← Option.isSome_iff_exists]

theorem sum_all_change (c : Nat → Int) :
    ∑ i ∈ trace.acceptedIntervals .all, (c i - c (i - 1)) = c trace.intervals - c 0 := by
  have whole : trace.acceptedIntervals .all = Finset.Icc 1 trace.intervals := by
    ext i
    rw [mem_acceptedIntervals, accepts_all, Finset.mem_Icc]
  rw [whole]
  by_cases empty : trace.intervals = 0
  · rw [empty]
    simp
  · exact sum_Icc_change c (Nat.one_le_iff_ne_zero.2 empty)

/-- Rising in every interval is rising from any snapshot to any later one. -/
theorem rising_all_iff (c : Nat → Nat) :
    (∀ i ∈ trace.acceptedIntervals .all, c (i - 1) ≤ c i) ↔
      ∀ i j, i ≤ j → j ≤ trace.intervals → c i ≤ c j := by
  simp only [mem_acceptedIntervals, accepts_all]
  constructor
  · intro rising i j le
    induction j, le using Nat.le_induction with
    | base => exact fun _ => Nat.le_refl _
    | succ j le ih =>
      intro inside
      have step := rising (j + 1) ⟨by omega, inside⟩
      exact (ih (by omega)).trans step
  · rintro rising i ⟨positive, inside⟩
    exact rising (i - 1) i (by omega) inside

end Trace

section Gauge

variable {config : Config} {trace : Trace} {metric : Metric} {gauge : Gauge}

/-- A sum of the rise of a gauge is the sum, over the maximal runs of accepted intervals, of the rise
from the snapshot before the run to the last snapshot of it. With every mode accepted it succeeds
exactly if no reading exceeds a later one and the rise from the baseline to the last snapshot fits a
signed word, and it is that rise. -/
theorem aggregate_telescopes {raws : List RawSnapshot}
    (loaded : (Trace.ofRaw config raws).outcome = .ok trace) (measured : metric.gauge? = some gauge)
    (available : gauge.Available config trace) :
    (∀ modes q, aggregate config trace metric modes = .ok q →
      ∃ values, q = .array values ∧
        values.map Int64.toInt = (List.range (gauge.instances config)).map fun k =>
          ∑ run ∈ trace.runs modes, ((trace.reading config gauge run.2 k : Int) -
            trace.reading config gauge (run.1 - 1) k)) ∧
    ((∃ q, aggregate config trace metric .all = .ok q) ↔
      (∀ k < gauge.instances config, ∀ i j, i ≤ j → j ≤ trace.intervals →
        trace.reading config gauge i k ≤ trace.reading config gauge j k) ∧
      ∀ k < gauge.instances config, (trace.reading config gauge trace.intervals k : Int) -
        trace.reading config gauge 0 k ≤ 2 ^ 63 - 1) ∧
    ∀ q, aggregate config trace metric .all = .ok q →
      ∃ values, q = .array values ∧
        values.map Int64.toInt = (List.range (gauge.instances config)).map fun k =>
          (trace.reading config gauge trace.intervals k : Int) - trace.reading config gauge 0 k := by
  have fits := Trace.fits_of_ofRaw loaded
  have whole : Measures (aggregate config trace metric .all) (gauge.instances config)
      (fun k => ∀ i j, i ≤ j → j ≤ trace.intervals →
        trace.reading config gauge i k ≤ trace.reading config gauge j k)
      fun k => (trace.reading config gauge trace.intervals k : Int) -
        trace.reading config gauge 0 k := by
    apply (aggregate_measures fits measured available .all).congr
    · intro k _
      exact Trace.rising_all_iff fun i => trace.reading config gauge i k
    · intro k _
      exact Trace.sum_all_change fun i => (trace.reading config gauge i k : Int)
  refine ⟨fun modes q summed => ?_, whole.exists_ok_iff, fun q summed => ?_⟩
  · have sums := ((aggregate_measures fits measured available modes).eq_ok_iff q).1 summed
    apply sums.2.congr
    intro k _
    exact Trace.sum_accepted_change fun i => (trace.reading config gauge i k : Int)
  · exact ((whole.eq_ok_iff q).1 summed).2

end Gauge

namespace Sample

/-- Four intervals, of modes 1, 1, 0 and 1. In the third one the counters of the last level fall. -/
def stripedRaws : List RawSnapshot :=
  [raw 0 0 1 5, raw 4 1 3 9, raw 6 1 5 11, raw 9 0 6 2, raw 9 1 8 7]

def striped : Trace where
  baseline := (raw 0 0 1 5).view config
  later := [raw 4 1 3 9, raw 6 1 5 11, raw 9 0 6 2, raw 9 1 8 7].map (·.view config)

theorem striped_loaded : (Trace.ofRaw config stripedRaws).outcome = .ok striped :=
  Trace.ofRaw_of_checks (by decide +kernel) (by decide +kernel)

theorem runs_striped : striped.runs (.only (.ofList [1])) = {(1, 2), (4, 4)} := by
  decide +kernel

end Sample

/-- With one mode accepted, the hits of the last level rise from 5 to 11 over a run of two intervals and from
2 to 7 over a run of one. With every mode accepted, the cores' instructions rise from the baseline to the
last snapshot. -/
theorem aggregate_telescopes_sample :
    (∃ values, aggregate Sample.config Sample.striped (.cache "l3" .loadHits) (.only (.ofList [1])) =
        .ok (.array values) ∧ values.map Int64.toInt = [(11 - 5) + (7 - 2)]) ∧
    ∃ values, aggregate Sample.config Sample.striped .instructions .all = .ok (.array values) ∧
      values.map Int64.toInt = [112, 224] := by
  constructor
  · obtain ⟨runs, -, -⟩ := @aggregate_telescopes Sample.config Sample.striped (.cache "l3" .loadHits)
      (.cache "l3" .loadHits) Sample.stripedRaws Sample.striped_loaded rfl ⟨_, rfl⟩
    have summed : aggregate Sample.config Sample.striped (.cache "l3" .loadHits) (.only (.ofList [1])) =
        .ok (.array [11]) := by rfl
    obtain ⟨values, same, sums⟩ := runs _ _ summed
    rw [Sample.runs_striped] at sums
    exact ⟨values, summed.trans (congrArg _ same), sums.trans (by decide +kernel)⟩
  · obtain ⟨-, succeeds, sums⟩ := @aggregate_telescopes Sample.config Sample.striped .instructions
      (.core .instructions) Sample.stripedRaws Sample.striped_loaded rfl rfl
    have rising : ∀ k < 2, ∀ i ∈ Sample.striped.acceptedIntervals .all,
        Sample.striped.reading Sample.config (.core .instructions) (i - 1) k ≤
          Sample.striped.reading Sample.config (.core .instructions) i k := by
      decide +kernel
    obtain ⟨q, summed⟩ := succeeds.2
      ⟨fun k inside => (Trace.rising_all_iff _).1 (rising k inside), by decide +kernel⟩
    obtain ⟨values, rfl, same⟩ := sums q summed
    exact ⟨values, summed, same.trans (by decide +kernel)⟩

end IntervalStats
