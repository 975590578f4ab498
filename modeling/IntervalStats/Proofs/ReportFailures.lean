import IntervalStats.Proofs.ReportEntries
import IntervalStats.Proofs.ShapeSafety

/-!
# Unknown caches of a report

A report needs four caches, and the first of them that is not configured stops it
(`Report.build_eq_unknownCache_iff`). The settings look for all four before anything is summed, so whatever
stops the results is something else (`failsWith_results`).
-/

namespace IntervalStats

open Outcome (FailsWith)

namespace Sniper

variable {a : Aggregator} {config : Config}

/-! ## Unknown caches -/

/-- The failure is not that a cache is unknown. -/
def CachesKnown (e : Failure) : Prop :=
  ∀ name, e ≠ .error (.unknownCache name)

/-- All caches that a report needs are configured. -/
def Complete (config : Config) : Prop :=
  ∀ r ∈ reportedCaches, ∃ found, config.findCache r.name = .ok found

theorem failsWith_aggregate (fits : a.trace.Fits a.config) (complete : Complete a.config)
    {metric : Metric}
    (reported : ∀ name, metric.cacheName? = some name → ∃ r ∈ reportedCaches, r.name = name) :
    FailsWith CachesKnown (aggregate a.config a.trace metric a.modes) := by
  rintro e failed name rfl
  obtain ⟨finding, same, unshaped⟩ :=
    (aggregate_eq_error_iff fits metric a.modes (by rintro ⟨⟩)).1 failed
  cases same
  rcases Metric.shape_eq_error_iff.1 unshaped with ⟨_, -, -, other⟩ | ⟨cache, named, missing, -⟩
  · cases other
  · obtain ⟨r, listed, rfl⟩ := reported cache named
    obtain ⟨found, located⟩ := complete r listed
    have unknown := Config.findCache_eq_error_iff.2 ⟨missing, rfl⟩
    cases located.symm.trans unknown

theorem failsWith_padded (q : Quantity) (length : Nat) (what : String) :
    FailsWith CachesKnown (q.padded length what) := by
  unfold Quantity.padded
  split
  · exact .ok _
  · exact .error (by rintro name ⟨⟩)

theorem failsWith_sub (p q : Quantity) : FailsWith CachesKnown (p.sub q) := by
  apply Quantity.failsWith_combine
  · exact fun x y => failsWith_wordOf (by rintro name ⟨⟩) _
  · rintro - name ⟨⟩

theorem failsWith_total (q : Quantity) : FailsWith CachesKnown q.total := by
  cases q with
  | scalar value => exact .ok value
  | array values => exact .foldlM (fun _ _ => failsWith_wordOf (by rintro name ⟨⟩) _) values 0

section Known

variable (fits : a.trace.Fits a.config) (complete : Complete a.config)
include fits complete

theorem failsWith_uopResults : FailsWith CachesKnown (uopResults a).outcome := by
  have sum (kind : UopKind) :
      FailsWith CachesKnown (aggregate a.config a.trace (.uops kind) a.modes) := by
    refine failsWith_aggregate fits complete fun name named => ?_
    refine ⟨⟨"l1d", "L1-D", "l1_dcache"⟩, List.mem_cons_self .., ?_⟩
    cases kind <;> cases named <;> rfl
  simp only [uopResults, uopTotals, Logged.outcome_bind, Aggregator.outcome_sum,
    Logged.outcome_ofExcept, Logged.outcome_pure]
  have padded (kind : UopKind) (what : String) : FailsWith CachesKnown
      (aggregate a.config a.trace (.uops kind) a.modes >>= fun q =>
        q.padded a.config.cores what >>= fun values => .ok (Quantity.array values)) :=
    (sum kind).bind fun q => (failsWith_padded q _ what).bind fun _ => .ok _
  refine .bind ?_ fun uops => ?_
  · refine (sum .total).bind fun _ => (padded .load _).bind fun _ => (padded .store _).bind fun _ => ?_
    exact (sum .branch).bind fun _ => (sum .fpAddSub).bind fun _ => (sum .fpMulDiv).bind fun _ => .ok _
  · exact (FailsWith.foldlM failsWith_sub _ _).bind fun _ => .ok _

theorem failsWith_coreResults : FailsWith CachesKnown (coreResults a).outcome := by
  have noCache : ∀ m ∈ coreMetrics, m.2.cacheName? = none := by decide
  simp only [coreResults, Logged.outcome_mapM, Logged.outcome_bind, Aggregator.outcome_sum,
    Logged.outcome_pure]
  refine .mapM fun m listed => (failsWith_aggregate fits complete ?_).bind fun _ => .ok _
  intro name named
  cases (noCache m listed).symm.trans named

theorem failsWith_timeResults : FailsWith CachesKnown (timeResults a).outcome := by
  simp only [timeResults, Logged.outcome_bind, Aggregator.outcome_total, Logged.outcome_pure]
  refine .bind (.bind (failsWith_aggregate fits complete ?_) failsWith_total) fun _ => .ok _
  rintro name ⟨⟩

theorem failsWith_cacheResults {r : ReportedCache} (reported : r ∈ reportedCaches) {cache : Cache}
    (named : cache.id.name = r.name) : FailsWith CachesKnown (cacheResults a cache r.label).outcome := by
  have padded (stat : CacheStat) (what : String) : FailsWith CachesKnown
      (aggregate a.config a.trace (.cache cache.id.name stat) a.modes >>= fun q =>
        q.padded a.config.cores what) := by
    refine (failsWith_aggregate fits complete ?_).bind fun q => failsWith_padded q _ what
    rintro name ⟨⟩
    exact ⟨r, reported, named.symm⟩
  rw [cacheResults, Logged.outcome_bind]
  refine .bind ?_ fun counts => ?_
  · simp only [cacheCounts, Logged.outcome_bind, Aggregator.outcome_sum, Logged.outcome_ofExcept,
      Logged.outcome_pure]
    exact (padded _ _).bind fun _ => (padded _ _).bind fun _ => (padded _ _).bind fun _ =>
      (padded _ _).bind fun _ => .ok _
  · split <;> exact .ok _

theorem failsWith_results : FailsWith CachesKnown (results a).outcome := by
  simp only [results, Logged.outcome_bind, Logged.outcome_mapM, Logged.outcome_ofExcept,
    Logged.outcome_pure]
  refine (failsWith_uopResults fits complete).bind fun _ => ?_
  refine (failsWith_coreResults fits complete).bind fun _ => ?_
  refine (failsWith_timeResults fits complete).bind fun _ => ?_
  refine .bind (.mapM fun r reported => ?_) fun _ => .ok _
  obtain ⟨⟨position, cache⟩, located⟩ := complete r reported
  rw [located]
  exact failsWith_cacheResults fits complete reported (Config.findCache_eq_ok located).2

end Known

/-! ## Settings -/

/-- The settings of each reported cache, if all of them are configured. -/
theorem settings_eq :
    settings config =
      (fun caches => fixedSettings ++ coreSettings config ++ caches.flatten) <$>
        reportedCaches.mapM fun r =>
          (fun found => cacheSettings config found.2 r.category) <$> config.findCache r.name :=
  rfl

theorem settings_eq_ok_iff {entries : List (String × Entry)} :
    settings config = .ok entries ↔
      ∃ caches, List.Forall₂ (fun r part => ∃ found, config.findCache r.name = .ok found ∧
          cacheSettings config found.2 r.category = part) reportedCaches caches ∧
        fixedSettings ++ coreSettings config ++ caches.flatten = entries := by
  simp only [settings_eq, map_eq_ok_iff, mapM_eq_ok_iff]

theorem complete_of_settings {entries : List (String × Entry)}
    (given : settings config = .ok entries) : Complete config := by
  obtain ⟨caches, each, -⟩ := settings_eq_ok_iff.1 given
  intro r reported
  obtain ⟨part, -, found, located, -⟩ := exists_mem_of_forall₂ each reported
  exact ⟨found, located⟩

theorem exists_findCache_iff {name : String} :
    (∃ found, config.findCache name = .ok found) ↔
      config.caches.all (·.id.name ≠ name) = false := by
  cases located : config.findCache name with
  | ok found =>
    obtain ⟨present, named⟩ := Config.findCache_eq_ok located
    have listed : ∃ cache ∈ config.caches, cache.id.name = name :=
      ⟨found.2, List.mem_of_getElem? present, named⟩
    simpa using listed
  | error e =>
    obtain ⟨missing, -⟩ := Config.findCache_eq_error_iff.1 located
    simpa using missing

/-- The settings lack a cache exactly if it is the first reported one that is not configured. -/
theorem settings_eq_unknownCache_iff {name : String} :
    settings config = .error (.unknownCache name) ↔
      (reportedCaches.map (·.name)).find? (fun n => config.caches.all (·.id.name ≠ n)) =
        some name := by
  have failed_iff (r : ReportedCache) : config.findCache r.name = .error (.unknownCache name) ↔
      config.caches.all (·.id.name ≠ r.name) = true ∧ r.name = name := by
    rw [Config.findCache_eq_error_iff, Error.unknownCache.injEq, eq_comm (a := name)]
    simp
  have passed_iff (r : ReportedCache) :
      (∃ part, (fun found => cacheSettings config found.2 r.category) <$> config.findCache r.name =
        .ok part) ↔ config.caches.all (·.id.name ≠ r.name) = false := by
    rw [← exists_findCache_iff]
    simp [map_eq_ok_iff]
  simp only [settings_eq, map_eq_error_iff, mapM_eq_error_iff, passed_iff, failed_iff, List.find?_map,
    Option.map_eq_some_iff, List.find?_eq_some_iff_append, Function.comp_apply, Bool.not_eq_true']
  constructor
  · rintro ⟨before, r, after, split, configured, missing, rfl⟩
    exact ⟨r, ⟨missing, before, after, split, configured⟩, rfl⟩
  · rintro ⟨r, ⟨missing, before, after, split, configured⟩, rfl⟩
    exact ⟨before, r, after, split, configured, missing, rfl⟩

/-! ## Reports -/

/-- A report stops at an unknown cache exactly if its settings do. -/
theorem Report.build_eq_unknownCache_iff (fits : a.trace.Fits a.config) {name : String} :
    (build a).outcome = fail (.unknownCache name) ↔
      (reportedCaches.map (·.name)).find? (fun n => a.config.caches.all (·.id.name ≠ n)) =
        some name := by
  rw [← settings_eq_unknownCache_iff]
  simp only [build, Logged.outcome_bind, Logged.outcome_ofExcept, Logged.outcome_note,
    Logged.outcome_pure]
  cases given : settings a.config with
  | error e => simp [Outcome.ofExcept, fail, bind, Except.bind]
  | ok entries =>
    have known : FailsWith CachesKnown ((Sniper.results a).outcome >>= fun listed =>
        Except.ok () >>= fun _ => Except.ok (Report.mk (.ofList entries) (.ofList listed))) :=
      (failsWith_results fits (complete_of_settings given)).bind fun _ => .ok _
    constructor
    · intro failed
      exact absurd rfl (known _ failed name)
    · intro failed
      cases failed

end Sniper

end IntervalStats
