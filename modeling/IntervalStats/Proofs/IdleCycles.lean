import IntervalStats.Proofs.Gauge
import IntervalStats.Proofs.LoadedConfig

/-!
# Idle cycles

The idle time of a core is the time of a signed word: the cycles that an interval spans, less those in
which the core was busy. `Trace.idleCycles` computes these words, and an idle time is found exactly if
they are and each of them has a time (`idleTimeDelta_eq_ok_iff`).

The cycles of an interval are an unsigned word, which is read as a signed one before the busy cycles are
taken away. So the words are the exact numbers of idle cycles only if the interval spans fewer than half
the range of a word; beyond that they are too small by the whole range, and negative
(`idleTimeDelta_counts_idle_cycles`).
-/

namespace IntervalStats

/-! ## Exact cycles -/

namespace Trace

/-- The phase of the snapshot at an index. -/
def phaseAt (trace : Trace) (index : Nat) : Nat :=
  match trace.snapshots[index]? with
  | some s => s.phase.toNat
  | none => 0

/-- The exact number of cycles of the interval that a snapshot closes. -/
def spannedCycles (trace : Trace) (config : Config) (i : Nat) : Int :=
  config.phaseLength.toNat * ((trace.phaseAt i : Int) - trace.phaseAt (i - 1) + 1)

/-- The exact number of cycles of an interval in which a core was busy. -/
def busyCycles (trace : Trace) (config : Config) (i core : Nat) : Int :=
  (trace.reading config (.core .cycles) i core : Int) - trace.reading config (.core .cycles) (i - 1) core

/-- The signed words that the idle times of the cores are the times of. -/
def idleCycles (trace : Trace) (config : Config) (index : Nat) : Outcome (List Int64) := do
  let cycles ← trace.intervalCycles config index
  let busy ← trace.coreDelta config .cycles index
  busy.elements.mapM (checkedSub cycles.toInt64)

variable {trace : Trace} {config : Config} {i : Nat}

theorem phaseAt_eq {s : Snapshot} (present : trace.snapshots[i]? = some s) :
    trace.phaseAt i = s.phase.toNat := by
  simp only [phaseAt, present]

/-- Whether a core is idle is settled for all cores before any time is taken. -/
theorem idleTimeDelta_eq_ok_iff {q : Quantity} :
    trace.idleTimeDelta config i = .ok q ↔
      ∃ idle times, trace.idleCycles config i = .ok idle ∧
        idle.mapM (fun word => config.timeOf word.toFloat) = .ok times ∧ q = .array times := by
  have each (cycles : Int64) : config.idleTime cycles = fun busy =>
      checkedSub cycles busy >>= fun word => config.timeOf word.toFloat := rfl
  simp only [idleTimeDelta, idleCycles, bind_eq_ok_iff, map_eq_ok_iff, each, mapM_bind_eq_ok_iff]
  constructor
  · rintro ⟨cycles, spanned, busy, changed, times, ⟨idle, counted, timed⟩, rfl⟩
    exact ⟨idle, times, ⟨cycles, spanned, busy, changed, counted⟩, timed, rfl⟩
  · rintro ⟨idle, times, ⟨cycles, spanned, busy, changed, counted⟩, timed, rfl⟩
    exact ⟨cycles, spanned, busy, changed, times, ⟨idle, counted, timed⟩, rfl⟩

theorem exists_ends_of_interval {before after : Snapshot} (found : trace.interval i = .ok (before, after)) :
    ∃ j, i = j + 1 ∧ trace.snapshots[j]? = some before ∧ trace.snapshots[j + 1]? = some after := by
  have present {index : Nat} {s : Snapshot} (taken : trace.snapshot index = .ok s) :
      trace.snapshots[index]? = some s := by
    unfold snapshot at taken
    split at taken
    · rename_i given
      cases taken
      exact given
    · cases taken
  cases i with
  | zero => cases found
  | succ j =>
    obtain ⟨first, takenFirst, rest⟩ := bind_eq_ok_iff.1 found
    obtain ⟨last, takenLast, same⟩ := bind_eq_ok_iff.1 rest
    cases pure_eq_ok_iff.1 same
    exact ⟨j, rfl, present takenFirst, present takenLast⟩

/-- The cycles of an interval are found exactly or not at all. -/
theorem toNat_of_intervalCycles {cycles : UInt64} (found : trace.intervalCycles config i = .ok cycles) :
    ∃ j before after, i = j + 1 ∧ trace.snapshots[j]? = some before ∧
      trace.snapshots[j + 1]? = some after ∧ (cycles.toNat : Int) = trace.spannedCycles config i := by
  obtain ⟨⟨before, after⟩, ends, rest⟩ := bind_eq_ok_iff.1 found
  obtain ⟨j, rfl, first, last⟩ := exists_ends_of_interval ends
  refine ⟨j, before, after, rfl, first, last, ?_⟩
  dsimp only at rest
  split at rest
  · cases rest
  · rename_i rose
    rw [UInt64.lt_iff_toNat_lt, Nat.not_lt] at rose
    obtain ⟨phases, counted, multiplied⟩ := bind_eq_ok_iff.1 rest
    have exactPhases := checkedAddUnsigned_eq_ok_iff.1 counted
    rw [UInt64.toNat_sub_of_le _ _ (UInt64.le_iff_toNat_le.2 rose), UInt64.toNat_one] at exactPhases
    have spanned : (phases.toNat : Int) = (after.phase.toNat : Int) - before.phase.toNat + 1 := by
      omega
    rw [spannedCycles, Nat.add_sub_cancel, phaseAt_eq first, phaseAt_eq last, ← spanned,
      checkedMulUnsigned_eq_ok_iff.1 multiplied, Int.natCast_mul]

end Trace

/-- An unsigned word in the upper half of its range is read as a negative number. -/
theorem toInt_toInt64 (w : UInt64) :
    w.toInt64.toInt = if w.toNat < 2 ^ 63 then (w.toNat : Int) else w.toNat - 2 ^ 64 := by
  show w.toBitVec.toInt = _
  rw [BitVec.toInt_eq_toNat_cond]
  show (if 2 * w.toNat < 2 ^ 64 then (w.toNat : Int) else w.toNat - (2 ^ 64 : Nat)) = _
  split <;> split <;> omega

/-! ## Idle cycles of the cores -/

theorem ExactWords.mapM_checkedSub {values rests : List Int64} {n : Nat} {exact : Nat → Int} {whole : Int64}
    (words : ExactWords values n exact) (subtracted : values.mapM (checkedSub whole) = .ok rests) :
    ExactWords rests n fun k => whole.toInt - exact k := by
  have each := mapM_eq_ok_iff.1 subtracted
  have same : rests.map Int64.toInt = (values.map Int64.toInt).map fun x => whole.toInt - x := by
    clear words subtracted
    induction each with
    | nil => rfl
    | cons first _ ih => rw [List.map_cons, List.map_cons, List.map_cons, ih, checkedSub_eq_ok_iff.1 first]
  rw [ExactWords, same, words, List.map_map]
  rfl

section Loaded

variable {trace : Trace} {config : Config} {raws : List RawSnapshot} {i : Nat}

/-- The words are what busy cycles leave of the cycles of the interval, read as a signed word. -/
theorem Trace.exactWords_of_idleCycles {idle : List Int64}
    (loaded : (Trace.ofRaw config raws).outcome = .ok trace)
    (counted : trace.idleCycles config i = .ok idle) :
    ∃ cycles : UInt64, (cycles.toNat : Int) = trace.spannedCycles config i ∧
      (∀ core < config.cores, 0 ≤ trace.busyCycles config i core) ∧
      ExactWords idle config.cores fun core => cycles.toInt64.toInt - trace.busyCycles config i core := by
  obtain ⟨cycles, spanned, rest⟩ := bind_eq_ok_iff.1 counted
  obtain ⟨busy, changed, subtracted⟩ := bind_eq_ok_iff.1 rest
  obtain ⟨j, before, after, rfl, first, last, exactCycles⟩ := toNat_of_intervalCycles spanned
  have reported : trace.reports .cycles = true := reports_of_isRequired loaded rfl
  have measured := coreDelta_measures (fits_of_ofRaw loaded) reported first last
  have busyEq (core : Nat) : trace.busyCycles config (j + 1) core =
      (after.coreValue .cycles core : Int) - before.coreValue .cycles core := by
    rw [busyCycles, Nat.add_sub_cancel, reading_eq first, reading_eq last]
    rfl
  simp only [← busyEq] at measured
  obtain ⟨rose, exactBusy⟩ := (measured.eq_ok_iff busy).1 changed
  refine ⟨cycles, exactCycles, fun core inside => measured.nonneg core inside (rose core inside), ?_⟩
  exact exactBusy.elements.mapM_checkedSub subtracted

/-- The idle times of the cores are the times of as many words. If the interval spans fewer than `2 ^ 63`
cycles, then each word is the exact number of cycles of the interval less the busy ones, so it is not
negative unless the core was busy for longer than the interval. Otherwise each word is too small by
`2 ^ 64`, and negative. -/
theorem idleTimeDelta_counts_idle_cycles {q : Quantity}
    (loaded : (Trace.ofRaw config raws).outcome = .ok trace)
    (found : trace.idleTimeDelta config i = .ok q) :
    ∃ idle times, trace.idleCycles config i = .ok idle ∧
      idle.mapM (fun word => config.timeOf word.toFloat) = .ok times ∧ q = .array times ∧
      idle.length = config.cores ∧
      ∀ core word, idle[core]? = some word →
        (trace.spannedCycles config i < 2 ^ 63 →
          word.toInt = trace.spannedCycles config i - trace.busyCycles config i core ∧
          (trace.busyCycles config i core ≤ trace.spannedCycles config i → 0 ≤ word.toInt)) ∧
        (2 ^ 63 ≤ trace.spannedCycles config i →
          word.toInt = trace.spannedCycles config i - trace.busyCycles config i core - 2 ^ 64 ∧
          word.toInt < 0) := by
  obtain ⟨idle, times, counted, timed, rfl⟩ := Trace.idleTimeDelta_eq_ok_iff.1 found
  obtain ⟨cycles, exactCycles, nonneg, words⟩ := Trace.exactWords_of_idleCycles loaded counted
  refine ⟨idle, times, counted, timed, rfl, words.length_eq, fun core word present => ?_⟩
  have inside : core < config.cores := words.length_eq ▸ (List.getElem?_eq_some_iff.1 present).1
  have busy := nonneg core inside
  have range := cycles.toNat_lt
  have exact : word.toInt = cycles.toInt64.toInt - trace.busyCycles config i core :=
    words.toInt_getElem? present
  rw [toInt_toInt64] at exact
  rw [← exactCycles]
  constructor
  · intro short
    rw [if_pos (by omega)] at exact
    omega
  · intro long
    rw [if_neg (by omega)] at exact
    omega

end Loaded

section Running

variable {trace : Trace} {config : Config} {i : Nat} (running : (config.frequencyToCycles == 0) = false)
include running

theorem Config.timeOf_eq_ok (cycles : Float) :
    config.timeOf cycles = .ok (cycles / config.frequencyToCycles).toInt64 := by
  simp [timeOf, running]

/-- If the clock runs, then an interval takes a time wherever its cycles are found. -/
theorem Trace.elapsedTimeDelta_eq_ok {cycles : UInt64}
    (spanned : trace.intervalCycles config i = .ok cycles) :
    trace.elapsedTimeDelta config i =
      .ok (.scalar (cycles.toFloat / config.frequencyToCycles).toInt64) := by
  rw [elapsedTimeDelta, spanned, ok_bind, Config.timeOf_eq_ok running]
  rfl

/-- If the clock runs, then idle times are found wherever the idle cycles are. -/
theorem Trace.idleTimeDelta_eq_ok {idle : List Int64} (counted : trace.idleCycles config i = .ok idle) :
    trace.idleTimeDelta config i =
      .ok (.array (idle.map fun word => (word.toFloat / config.frequencyToCycles).toInt64)) := by
  refine idleTimeDelta_eq_ok_iff.2 ⟨idle, _, counted, ?_, rfl⟩
  rw [mapM_eq_ok_iff, List.forall₂_map_right_iff, List.forall₂_same]
  intro word _
  exact Config.timeOf_eq_ok running _

end Running

namespace Sample

theorem running : (config.frequencyToCycles == 0) = false := by
  decide +kernel

/-- One interval of `2 ^ 50` phases, which are `10000 * 2 ^ 50` cycles. -/
def long : Trace where
  baseline := (raw 0 0 1 1).view config
  later := [(raw 0x3ffffffffffff 0 2 2).view config]

theorem long_loaded : (Trace.ofRaw config [raw 0 0 1 1, raw 0x3ffffffffffff 0 2 2]).outcome = .ok long :=
  Trace.ofRaw_of_checks (by decide +kernel) (by decide +kernel)

end Sample

/-- In the first interval of the sample the second core is busy for 64 of 50000 cycles. -/
theorem idleTimeDelta_counts_idle_cycles_sample :
    ∃ q idle word, Sample.trace.idleTimeDelta Sample.config 1 = .ok q ∧
      Sample.trace.idleCycles Sample.config 1 = .ok idle ∧ idle[1]? = some word ∧ word.toInt = 49936 := by
  have counted : Sample.trace.idleCycles Sample.config 1 = .ok [49968, 49936] := by rfl
  have found := Trace.idleTimeDelta_eq_ok Sample.running counted
  obtain ⟨idle, times, counted', -, -, -, words⟩ := idleTimeDelta_counts_idle_cycles Sample.loaded found
  cases counted.symm.trans counted'
  have short : Sample.trace.spannedCycles Sample.config 1 < 2 ^ 63 := by decide +kernel
  have idle := ((words 1 49936 rfl).1 short).1
  have exact : Sample.trace.spannedCycles Sample.config 1 - Sample.trace.busyCycles Sample.config 1 1 =
      49936 := by decide +kernel
  exact ⟨_, _, 49936, found, counted, rfl, idle.trans exact⟩

/-- In a long interval a core that is idle nearly all the time has a negative number of idle cycles. -/
theorem negative_idle_cycles_of_long_interval :
    (∃ raw, Config.ofRaw raw = .ok Sample.config) ∧
    (∃ raws, (Trace.ofRaw Sample.config raws).outcome = .ok Sample.long) ∧
    (∃ q, Sample.long.idleTimeDelta Sample.config 1 = .ok q) ∧
    ∃ idle word, Sample.long.idleCycles Sample.config 1 = .ok idle ∧ idle[0]? = some word ∧
      Sample.long.busyCycles Sample.config 1 0 ≤ Sample.long.spannedCycles Sample.config 1 ∧
      word.toInt ≠ Sample.long.spannedCycles Sample.config 1 - Sample.long.busyCycles Sample.config 1 0 ∧
      word.toInt < 0 := by
  have counted : Sample.long.idleCycles Sample.config 1 =
      .ok [-7187745005283311632, -7187745005283311648] := by rfl
  refine ⟨⟨_, Sample.ofRaw_rawConfig⟩, ⟨_, Sample.long_loaded⟩,
    ⟨_, Trace.idleTimeDelta_eq_ok Sample.running counted⟩, _, -7187745005283311632, counted, rfl, ?_, ?_, ?_⟩
  · decide +kernel
  · decide +kernel
  · decide

end IntervalStats
