import IntervalStats.Proofs.IntervalSplit

/-!
# Modes partition a trace

Two mode sets that share no interval of a trace split every sum over their union. The intervals of the
two alternate in the trace in any pattern, so the running totals of the three sums have little in
common; only the exact sums do.
-/

namespace IntervalStats

/-- No interval of the trace counts for both parts, and those that count for either are the ones that
count for the whole. -/
structure Trace.Partition (trace : Trace) (whole left right : ModeSet) : Prop where
  disjoint : ∀ s ∈ trace.later, ¬(left.contains s.mode = true ∧ right.contains s.mode = true)
  covers : ∀ s ∈ trace.later,
    whole.contains s.mode = true ↔ left.contains s.mode = true ∨ right.contains s.mode = true

variable {config : Config} {trace : Trace} {whole left right : ModeSet}

theorem Trace.Partition.accepts_iff (partition : trace.Partition whole left right) {i : Nat} :
    trace.Accepts whole i ↔ trace.Accepts left i ∨ trace.Accepts right i := by
  simp only [Trace.accepts_iff]
  constructor
  · rintro ⟨j, s, rfl, present, counts⟩
    rcases (partition.covers s (List.mem_of_getElem? present)).1 counts with counts | counts
    · exact .inl ⟨j, s, rfl, present, counts⟩
    · exact .inr ⟨j, s, rfl, present, counts⟩
  · rintro (⟨j, s, rfl, present, counts⟩ | ⟨j, s, rfl, present, counts⟩)
    · exact ⟨j, s, rfl, present, (partition.covers s (List.mem_of_getElem? present)).2 (.inl counts)⟩
    · exact ⟨j, s, rfl, present, (partition.covers s (List.mem_of_getElem? present)).2 (.inr counts)⟩

theorem Trace.Partition.not_accepts_both (partition : trace.Partition whole left right) {i : Nat}
    (first : trace.Accepts left i) : ¬trace.Accepts right i := by
  intro second
  obtain ⟨j, s, rfl, present, counts⟩ := Trace.accepts_iff.1 first
  obtain ⟨j', s', same, present', counts'⟩ := Trace.accepts_iff.1 second
  cases Nat.succ.inj same
  cases present.symm.trans present'
  exact partition.disjoint s (List.mem_of_getElem? present) ⟨counts, counts'⟩

/-- Whatever the modes, the intervals that count are intervals of the trace. -/
theorem isPart_of_modes (config : Config) (trace : Trace) (modes whole : ModeSet) :
    Aggregator.IsPart ⟨config, trace, modes⟩ ⟨config, trace, whole⟩ 0 where
  config_eq := rfl
  reports_eq _ := rfl
  sameInterval _ accepts := accepts.sameInterval 0 fun _ _ => rfl

theorem Trace.Partition.splits (partition : trace.Partition whole left right) (config : Config) :
    Aggregator.Splits ⟨config, trace, whole⟩ ⟨config, trace, left⟩ ⟨config, trace, right⟩ 0 where
  first := isPart_of_modes config trace left whole
  second := isPart_of_modes config trace right whole
  accepts_iff i := by simpa using partition.accepts_iff
  disjoint j second first := partition.not_accepts_both first second

/-- Sums over two mode sets that share no interval add up to the sum over both. -/
theorem aggregate_partitions {raws : List RawSnapshot}
    (loaded : (Trace.ofRaw config raws).outcome = .ok trace)
    (partition : trace.Partition whole left right) (metric : Metric) :
    Aggregator.PartsAddUp ⟨config, trace, whole⟩ ⟨config, trace, left⟩ ⟨config, trace, right⟩ metric := by
  have fits := Trace.fits_of_ofRaw loaded
  exact (partition.splits config).partsAddUp fits fits fits metric

/-- The intervals of the sample are of modes 1 and 0 in turn. -/
theorem aggregate_partitions_sample :
    ∃ q a b : Quantity, aggregate Sample.config Sample.trace .instructions .all = .ok q ∧
      aggregate Sample.config Sample.trace .instructions (.only (.ofList [1])) = .ok a ∧
      aggregate Sample.config Sample.trace .instructions (.only (.ofList [0])) = .ok b ∧
      q.IsSum a b ∧ q.exact 1 = 224 := by
  have partition : Sample.trace.Partition .all (.only (.ofList [1])) (.only (.ofList [0])) := by
    constructor <;> simp [Sample.trace] <;> decide
  have parts := aggregate_partitions Sample.loaded partition .instructions
  have ones : aggregate Sample.config Sample.trace .instructions (.only (.ofList [1])) =
      .ok (.array [96, 192]) := by rfl
  have zeros : aggregate Sample.config Sample.trace .instructions (.only (.ofList [0])) =
      .ok (.array [16, 32]) := by rfl
  obtain ⟨q, summed⟩ := (parts.exists_ok_iff nofun nofun).2 ⟨_, _, ones, zeros, by decide⟩
  have sum := parts.isSum q _ _ summed ones zeros
  exact ⟨q, _, _, summed, ones, zeros, sum, sum.exact_eq 1⟩

end IntervalStats
