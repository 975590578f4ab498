import IntervalStats.Proofs.IntervalSplit

/-!
# Traces in pieces

A trace can be cut at any snapshot. The snapshot ends the first piece and is the baseline of the
second, so its mode counts in the first piece only, and each interval lies in exactly one of them. Both
pieces load wherever the whole does, and their sums add up to that of the whole (`aggregate_pieces`).
-/

namespace IntervalStats

namespace Trace

variable {config : Config} {trace : Trace} {raws : List RawSnapshot} {modes : ModeSet} {k i j : Nat}

/-- The trace up to the snapshot at an index. -/
def upTo (trace : Trace) (k : Nat) : Trace :=
  ⟨trace.baseline, trace.later.take k⟩

/-- The trace from the snapshot at an index on, which becomes the baseline. -/
def since (trace : Trace) (k : Nat) : Trace :=
  ⟨trace.snapshots.getD k trace.baseline, trace.later.drop k⟩

theorem snapshots_upTo : (trace.upTo k).snapshots = trace.snapshots.take (k + 1) := rfl

theorem snapshots_since (inside : k < trace.size) :
    (trace.since k).snapshots = trace.snapshots.drop k := by
  rw [List.drop_eq_getElem_cons inside, snapshots, since, List.getD_eq_getElem _ _ inside]
  rfl

/-! ## Loading -/

theorem Fits.reports_eq (fits : trace.Fits config) {piece : Trace}
    (within : piece.snapshots ⊆ trace.snapshots) (c : CoreCounter) :
    piece.reports c = trace.reports c :=
  fits.uniform piece.baseline (within (List.mem_cons_self ..)) c

/-- Any choice of the stored snapshots of a trace loads: each is complete by itself, and all report the
same counters. -/
theorem ofRaw_of_subset (loaded : (ofRaw config raws).outcome = .ok trace) {piece : Trace}
    {chosen : List RawSnapshot} (views : piece.snapshots = chosen.map (·.view config))
    (subset : chosen ⊆ raws) : (ofRaw config chosen).outcome = .ok piece := by
  obtain ⟨allViews, complete, uniform⟩ := ofRaw_eq_ok_iff.1 loaded
  have within : piece.snapshots ⊆ trace.snapshots := by
    rw [views, allViews]
    exact List.map_subset _ subset
  refine ofRaw_eq_ok_iff.2 ⟨views, fun raw member => complete raw (subset member), fun s member c => ?_⟩
  rw [uniform s (within member), (fits_of_ofRaw loaded).reports_eq within]

theorem size_eq_of_ofRaw (loaded : (ofRaw config raws).outcome = .ok trace) :
    trace.size = raws.length := by
  rw [size, (ofRaw_eq_ok_iff.1 loaded).1, List.length_map]

theorem ofRaw_take (loaded : (ofRaw config raws).outcome = .ok trace) (k : Nat) :
    (ofRaw config (raws.take (k + 1))).outcome = .ok (trace.upTo k) := by
  apply ofRaw_of_subset loaded _ (List.take_subset _ _)
  rw [snapshots_upTo, (ofRaw_eq_ok_iff.1 loaded).1, List.map_take]

theorem ofRaw_drop (loaded : (ofRaw config raws).outcome = .ok trace) (inside : k < raws.length) :
    (ofRaw config (raws.drop k)).outcome = .ok (trace.since k) := by
  apply ofRaw_of_subset loaded _ (List.drop_subset _ _)
  rw [snapshots_since (size_eq_of_ofRaw loaded ▸ inside), (ofRaw_eq_ok_iff.1 loaded).1, List.map_drop]

/-! ## Intervals of the pieces -/

theorem accepts_upTo : (trace.upTo k).Accepts modes i ↔ trace.Accepts modes i ∧ i ≤ k := by
  simp only [Accepts, snapshots_upTo, List.getElem?_take, Nat.lt_succ_iff]
  split
  · rename_i early
    simp [early]
  · rename_i late
    simp [late]

theorem accepts_since (inside : k < trace.size) :
    (trace.since k).Accepts modes j ↔ 1 ≤ j ∧ trace.Accepts modes (j + k) := by
  simp only [Accepts, snapshots_since inside, List.getElem?_drop, Nat.add_comm k j]
  constructor
  · rintro ⟨positive, counts⟩
    exact ⟨positive, by omega, counts⟩
  · rintro ⟨positive, -, counts⟩
    exact ⟨positive, counts⟩

theorem isPart_upTo (fits : trace.Fits config) (k : Nat) (modes : ModeSet) :
    Aggregator.IsPart ⟨config, trace.upTo k, modes⟩ ⟨config, trace, modes⟩ 0 where
  config_eq := rfl
  reports_eq := fits.reports_eq (snapshots_upTo ▸ List.take_subset _ _)
  sameInterval i accepts := by
    have early := (accepts_upTo.1 accepts).2
    refine accepts.sameInterval 0 fun j before => ?_
    rw [snapshots_upTo, List.getElem?_take, if_pos (by omega), Nat.add_zero]

theorem isPart_since (fits : trace.Fits config) (inside : k < trace.size) (modes : ModeSet) :
    Aggregator.IsPart ⟨config, trace.since k, modes⟩ ⟨config, trace, modes⟩ k where
  config_eq := rfl
  reports_eq := fits.reports_eq (snapshots_since inside ▸ List.drop_subset _ _)
  sameInterval j accepts := by
    refine accepts.sameInterval k fun i _ => ?_
    rw [snapshots_since inside, List.getElem?_drop, Nat.add_comm]

theorem splits_at (fits : trace.Fits config) (inside : k < trace.size) (modes : ModeSet) :
    Aggregator.Splits ⟨config, trace, modes⟩ ⟨config, trace.upTo k, modes⟩
      ⟨config, trace.since k, modes⟩ k where
  first := isPart_upTo fits k modes
  second := isPart_since fits inside modes
  accepts_iff i := by
    simp only [accepts_upTo, accepts_since inside]
    constructor
    · intro accepts
      by_cases early : i ≤ k
      · exact .inl ⟨accepts, early⟩
      · obtain ⟨j, rfl⟩ := Nat.exists_eq_add_of_le' (Nat.le_of_not_le early)
        exact .inr ⟨j, ⟨by omega, accepts⟩, rfl⟩
    · rintro (⟨accepts, -⟩ | ⟨j, ⟨-, accepts⟩, rfl⟩)
      · exact accepts
      · exact accepts
  disjoint j second first := by
    have later := ((accepts_since inside).1 second).1
    have early := (accepts_upTo.1 first).2
    omega

end Trace

/-- Both pieces of stored snapshots that load are loaded too, and the sums over the pieces add up to
those over the whole. -/
theorem aggregate_pieces {config : Config} {trace : Trace} {raws : List RawSnapshot} {k : Nat}
    (loaded : (Trace.ofRaw config raws).outcome = .ok trace) (inside : k < raws.length) :
    (Trace.ofRaw config (raws.take (k + 1))).outcome = .ok (trace.upTo k) ∧
    (Trace.ofRaw config (raws.drop k)).outcome = .ok (trace.since k) ∧
    ∀ modes metric, Aggregator.PartsAddUp ⟨config, trace, modes⟩ ⟨config, trace.upTo k, modes⟩
      ⟨config, trace.since k, modes⟩ metric := by
  have first := Trace.ofRaw_take loaded k
  have second := Trace.ofRaw_drop loaded inside
  refine ⟨first, second, fun modes metric => ?_⟩
  have fits := Trace.fits_of_ofRaw loaded
  have splits := Trace.splits_at fits (Trace.size_eq_of_ofRaw loaded ▸ inside) modes
  exact splits.partsAddUp fits (Trace.fits_of_ofRaw first) (Trace.fits_of_ofRaw second) metric

/-- The sample cut after its second interval, whose mode does not count: what is left of the sum is in
the outer intervals, one in each piece. -/
theorem aggregate_pieces_sample :
    (Trace.ofRaw Sample.config (Sample.raws.drop 2)).outcome = .ok (Sample.trace.since 2) ∧
    ∃ q a b : Quantity,
      aggregate Sample.config Sample.trace (.cache "l3" .stores) (.only (.ofList [1])) = .ok q ∧
      aggregate Sample.config (Sample.trace.upTo 2) (.cache "l3" .stores) (.only (.ofList [1])) = .ok a ∧
      aggregate Sample.config (Sample.trace.since 2) (.cache "l3" .stores) (.only (.ofList [1])) = .ok b ∧
      q.IsSum a b ∧ q.exact 0 = 27 := by
  obtain ⟨-, loaded, pieces⟩ := aggregate_pieces (k := 2) Sample.loaded (by decide)
  have parts := pieces (.only (.ofList [1])) (.cache "l3" .stores)
  have first : aggregate Sample.config (Sample.trace.upTo 2) (.cache "l3" .stores)
      (.only (.ofList [1])) = .ok (.array [12]) := by rfl
  have second : aggregate Sample.config (Sample.trace.since 2) (.cache "l3" .stores)
      (.only (.ofList [1])) = .ok (.array [15]) := by rfl
  obtain ⟨q, summed⟩ := (parts.exists_ok_iff nofun nofun).2 ⟨_, _, first, second, by decide⟩
  have sum := parts.isSum q _ _ summed first second
  exact ⟨loaded, q, _, _, summed, first, second, sum, sum.exact_eq 0⟩

end IntervalStats
