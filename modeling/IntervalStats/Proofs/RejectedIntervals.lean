import IntervalStats.Proofs.ModeCompleteness

/-!
# Rejected intervals

What the counters do in an interval whose mode does not count has no influence on a result. Two loaded
traces are alike for a mode set (`Trace.AlikeFor`) if they agree wherever an accepted interval begins or
ends; elsewhere their counters and phases may differ at will, and even fall or overflow. Then every sum
has the same value on both, or the same failure at the same index, and so has every result made of sums
(`rejected_intervals_irrelevant`).
-/

namespace IntervalStats

namespace Trace

variable {config : Config} {trace other : Trace} {raws : List RawSnapshot} {modes : ModeSet} {i : Nat}

/-- Two traces of one length whose intervals have the same modes, which report the same optional
counters, and which have the same phases and counters at both ends of every accepted interval. -/
structure AlikeFor (modes : ModeSet) (trace other : Trace) : Prop where
  size_eq : trace.size = other.size
  reports_eq : ∀ c : CoreCounter, c.isRequired = false → trace.reports c = other.reports c
  mode_eq : ∀ i s t, 1 ≤ i → trace.snapshots[i]? = some s → other.snapshots[i]? = some t →
    s.mode = t.mode
  sameCounters : ∀ i, trace.Accepts modes i → ∀ j s t, j = i - 1 ∨ j = i →
    trace.snapshots[j]? = some s → other.snapshots[j]? = some t → s.SameCounters t

/-- Which places are accepted is settled by the modes of the intervals. -/
theorem accepted_eq_filter_modes (trace : Trace) (modes : ModeSet) :
    trace.accepted modes =
      (((trace.later.map (·.mode)).zipIdx 1).filter fun p => modes.contains p.1).map (·.2) := by
  rw [List.zipIdx_map, List.filter_map, List.map_map]
  rfl

namespace AlikeFor

theorem modes_eq (alike : AlikeFor modes trace other) :
    trace.later.map (·.mode) = other.later.map (·.mode) := by
  have lengths : trace.later.length = other.later.length := Nat.succ.inj alike.size_eq
  apply List.ext_getElem
  · simpa using lengths
  · intro j here there
    rw [List.length_map] at here there
    rw [List.getElem_map, List.getElem_map]
    have present : trace.snapshots[j + 1]? = some trace.later[j] := List.getElem?_eq_getElem here
    have present' : other.snapshots[j + 1]? = some other.later[j] := List.getElem?_eq_getElem there
    exact alike.mode_eq (j + 1) _ _ (Nat.le_add_left 1 j) present present'

theorem accepted_eq (alike : AlikeFor modes trace other) :
    trace.accepted modes = other.accepted modes := by
  rw [accepted_eq_filter_modes, accepted_eq_filter_modes, alike.modes_eq]

theorem sameInterval (alike : AlikeFor modes trace other) (accepts : trace.Accepts modes i) :
    trace.SameInterval i other i := by
  obtain ⟨j, before, after, rfl, first, last⟩ := accepts.exists_ends
  have inside : j + 1 < other.snapshots.length := by
    have bound := accepts.lt_size
    rw [alike.size_eq] at bound
    exact bound
  have first' := List.getElem?_eq_getElem (Nat.lt_of_succ_lt inside)
  have last' := List.getElem?_eq_getElem inside
  have begins := alike.sameCounters (j + 1) accepts j _ _ (.inl rfl) first first'
  have ends := alike.sameCounters (j + 1) accepts (j + 1) _ _ (.inr rfl) last last'
  exact .intro (interval_eq_ok first last) (interval_eq_ok first' last') begins ends

end AlikeFor

end Trace

/-- Traces of one configuration that differ in rejected intervals only have the same outcomes. -/
theorem rejected_intervals_irrelevant {config : Config} {trace other : Trace}
    {raws raws' : List RawSnapshot} {modes : ModeSet}
    (loaded : (Trace.ofRaw config raws).outcome = .ok trace)
    (loaded' : (Trace.ofRaw config raws').outcome = .ok other)
    (alike : Trace.AlikeFor modes trace other) :
    Aggregator.SameOutcomes ⟨config, trace, modes⟩ ⟨config, other, modes⟩ := by
  have reported : ∀ c, trace.reports c = other.reports c := by
    intro c
    cases required : c.isRequired with
    | false => exact alike.reports_eq c required
    | true =>
      rw [Trace.reports_of_isRequired loaded required, Trace.reports_of_isRequired loaded' required]
  refine Aggregator.sameOutcomes_of_sums rfl (aggregate_congr reported alike.accepted_eq ?_)
  intro i accepts
  exact alike.sameInterval accepts

namespace Sample

/-- The stored sample with another baseline and another end. Counters and phase fall in the first interval;
in the last one the phase falls and a counter of the cores overflows. -/
def disturbedRaws : List RawSnapshot :=
  [raw 7 5 50 3, raw 4 1 3 9, raw 9 0 4 2, raw 1 1 0x0fffffffffffffff 7]

def disturbed : Trace where
  baseline := (raw 7 5 50 3).view config
  later := [(raw 4 1 3 9).view config, (raw 9 0 4 2).view config,
    (raw 1 1 0x0fffffffffffffff 7).view config]

theorem disturbed_loaded : (Trace.ofRaw config disturbedRaws).outcome = .ok disturbed :=
  Trace.ofRaw_of_checks (by decide +kernel) (by decide +kernel)

/-- Of the intervals only the one in the middle has mode 0, and nothing differs at its ends. -/
theorem alike_disturbed : Trace.AlikeFor (.only (.ofList [0])) trace disturbed where
  size_eq := rfl
  reports_eq c _ := by
    have same : ∀ c ∈ CoreCounter.all, trace.reports c = disturbed.reports c := by decide +kernel
    exact same c (CoreCounter.mem_all c)
  mode_eq i s t positive here there := by
    match i with
    | 1 | 2 | 3 => cases here; cases there; rfl
    | 0 => contradiction
    | i + 4 => cases here
  sameCounters i accepts j s t atEnd here there := by
    have bound : i < 4 := accepts.lt_size
    obtain rfl | rfl | rfl | rfl : i = 0 ∨ i = 1 ∨ i = 2 ∨ i = 3 := by omega
    · exact absurd accepts (by decide)
    · exact absurd accepts (by decide)
    · rcases atEnd with rfl | rfl <;> cases here <;> cases there <;> exact .refl _
    · exact absurd accepts (by decide)

end Sample

/-- The sum over the interval in the middle is the same in both samples, and so is the fall of a counter
in it, while the sum over all intervals stops at the first. -/
theorem rejected_intervals_irrelevant_sample :
    aggregate Sample.config Sample.disturbed .cycles (.only (.ofList [0])) = .ok (.array [16, 32]) ∧
    aggregate Sample.config Sample.disturbed (.cache "l3" .loads) (.only (.ofList [0])) =
      fail (.counterDecreased "l3" "hGETS" 2) ∧
    aggregate Sample.config Sample.disturbed .cycles .all =
      fail (.counterDecreased "westmere" "cycles" 1) := by
  have same := rejected_intervals_irrelevant Sample.loaded Sample.disturbed_loaded Sample.alike_disturbed
  refine ⟨?_, ?_, by rfl⟩
  · rw [← same.sums .cycles]
    rfl
  · rw [← same.sums (.cache "l3" .loads)]
    rfl

end IntervalStats
