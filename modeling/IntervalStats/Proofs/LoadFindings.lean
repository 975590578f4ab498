import IntervalStats.Proofs.FaithfulLoading

/-!
# What an error of loading says

Stored snapshots are checked in two passes: each on its own, in order, and then all of them together for
the counters that the cores may leave out. `RawSnapshot.Defect` is what the first pass can find in one
snapshot, and `Trace.checkUniform_eq_error` says that the second one finds the first snapshot that lacks
a counter, also where it is the baseline. `Trace.ofRaw_findings` puts both together: an error of loading
tells the truth about the snapshot that it names, and about those before it.
-/

namespace IntervalStats

/-! ## Called counters -/

/-- The configuration demands a counter of a component in every snapshot, with so many values. -/
inductive Config.Requires (config : Config) : String → String → Nat → Prop where
  | core {counter : String} (listed : counter ∈ requiredCounters) :
      Requires config config.coreGroup.name counter config.cores
  | cache {cache : Cache} {counter : String} (listed : cache ∈ config.caches)
      (called : counter ∈ cache.id.calledCounters) :
      Requires config cache.id.name counter cache.instances

/-- The configuration calls for a counter of a component, with so many values if it is there. -/
inductive Config.CallsFor (config : Config) : String → String → Nat → Prop where
  | required {component counter : String} {size : Nat}
      (demanded : config.Requires component counter size) : CallsFor config component counter size
  | optional {counter : String} (listed : counter ∈ optionalCounters) :
      CallsFor config config.coreGroup.name counter config.cores

namespace Config

variable {config : Config}

theorem requires_core {c : CoreCounter} (required : c.isRequired = true) :
    config.Requires config.coreGroup.name c.name config.cores :=
  forall_requiredCounters (P := (config.Requires config.coreGroup.name · config.cores)).1
    (fun _ listed => .core listed) c required

theorem requires_cache {cache : Cache} (listed : cache ∈ config.caches) {c : CacheCounter}
    (called : cache.id.lacks c = false) : config.Requires cache.id.name c.name cache.instances :=
  forall_calledCounters (P := (config.Requires cache.id.name · cache.instances)).1
    (fun _ named => .cache listed named) c called

theorem callsFor_core (c : CoreCounter) :
    config.CallsFor config.coreGroup.name c.name config.cores := by
  cases kind : c.isRequired with
  | true => exact .required (requires_core kind)
  | false =>
    exact forall_optionalCounters (P := (config.CallsFor config.coreGroup.name · config.cores)).1
      (fun _ listed => .optional listed) c kind

end Config

/-! ## One snapshot -/

/-- How an error names a counter of a stored snapshot. -/
def counterText (component counter : String) (index : Nat) : String :=
  s!"Counter `{component}.{counter}` of snapshot {index}"

/-- The index is what follows the last blank. -/
theorem takeWhile_reverse_counterText (component counter : String) (index : Nat) :
    (counterText component counter index).toList.reverse.takeWhile (· ≠ ' ') =
      (Nat.toDigits 10 index).reverse := by
  have split : (counterText component counter index).toList =
      ("Counter `" ++ component ++ "." ++ counter ++ "` of snapshot").toList ++
        ' ' :: Nat.toDigits 10 index := by
    simp [counterText, toString, Nat.toList_repr]
  have digits : ∀ c ∈ (Nat.toDigits 10 index).reverse, decide (c ≠ ' ') = true := by
    intro c listed
    have digit := Nat.isDigit_of_mem_toDigits (by decide) (by decide) (List.mem_reverse.1 listed)
    rw [decide_eq_true_iff]
    rintro rfl
    cases digit
  rw [split, List.reverse_append, List.reverse_cons, List.append_assoc,
    List.takeWhile_append_of_pos digits]
  simp

/-- Whatever the names of a component and of a counter are, the text tells the snapshot. -/
theorem index_eq_of_counterText_eq {component counter component' counter' : String} {index index' : Nat}
    (same : counterText component counter index = counterText component' counter' index') :
    index = index' := by
  have digits := takeWhile_reverse_counterText component counter index
  rw [same, takeWhile_reverse_counterText, List.reverse_inj] at digits
  rw [← Nat.ofDigitChars_ten_toDigits (n := index), ← digits, Nat.ofDigitChars_ten_toDigits]

namespace RawSnapshot

/-- What the check of one stored snapshot can find. -/
inductive Defect (config : Config) (raw : RawSnapshot) (index : Nat) : Error → Prop where
  | missing {component counter : String} {size : Nat}
      (demanded : config.Requires component counter size)
      (absent : ∀ values, ¬raw.Holds component counter values) :
      Defect config raw index (.missingCounter component counter index)
  | misshapen {component counter : String} {expected found : Nat}
      (called : config.CallsFor component counter expected)
      (held : raw.HoldsCount component counter found) (differs : expected ≠ found) :
      Defect config raw index (.shapeMismatch (counterText component counter index) expected found)

variable {config : Config} {raw : RawSnapshot} {index size : Nat} {component counter : String} {e : Error}

theorem defect_of_checkCounter (called : config.CallsFor component counter size)
    (failed : raw.checkCounter index component counter size = .error e) : Defect config raw index e := by
  unfold checkCounter CounterReader.valuesOf at failed
  split at failed
  · cases failed
  · rename_i given found
    split at failed
    · cases failed
    · rename_i differs
      cases failed
      have held : raw.Holds component counter given.values :=
        values?_eq_some_iff.1 (by rw [values?, found]; rfl)
      exact .misshapen called ⟨_, held, rfl⟩ (Ne.symm differs)

theorem defect_of_requireCounter (demanded : config.Requires component counter size)
    (failed : raw.requireCounter index component counter size = .error e) :
    Defect config raw index e := by
  rcases bind_eq_error_iff.1 failed with stopped | ⟨given, checked, refused⟩
  · exact defect_of_checkCounter (.required demanded) stopped
  · obtain ⟨rfl, -⟩ := checkCounter_eq_ok_iff.1 checked
    cases present : raw.values? component counter with
    | some values =>
      rw [present] at refused
      cases refused
    | none =>
      rw [present] at refused
      cases refused
      refine .missing demanded fun values held => ?_
      cases present.symm.trans (values?_eq_some_iff.2 held)

theorem defect_of_check (failed : raw.check config index = .error e) : Defect config raw index e := by
  rcases bind_eq_error_iff.1 failed with cores | ⟨-, -, caches⟩
  · obtain ⟨c, -, stopped⟩ := exists_of_forM_eq_error cores
    unfold checkCore at stopped
    split at stopped
    · rename_i required
      exact defect_of_requireCounter (Config.requires_core required) stopped
    · exact defect_of_checkCounter (Config.callsFor_core c) (map_eq_error_iff.1 stopped)
  · obtain ⟨cache, listed, failed⟩ := exists_of_forM_eq_error caches
    obtain ⟨c, -, stopped⟩ := exists_of_forM_eq_error failed
    unfold checkCache at stopped
    split at stopped
    · cases stopped
    · rename_i called
      exact defect_of_requireCounter (Config.requires_cache listed (by simpa using called)) stopped

theorem Complete.holdsCount_of_requires (complete : raw.Complete config)
    (demanded : config.Requires component counter size) : raw.HoldsCount component counter size := by
  obtain ⟨required, -, caches⟩ := complete_iff.1 complete
  cases demanded with
  | core listed =>
    exact forall_requiredCounters (P := (raw.HoldsCount config.coreGroup.name · config.cores)).2
      required counter listed
  | @cache cache counter listed called =>
    exact forall_calledCounters (P := (raw.HoldsCount cache.id.name · cache.instances)).2
      (caches cache listed) counter called

/-- Where a counter is called for, a complete snapshot has no other number of values. -/
theorem Complete.eq_of_holdsCount {found : Nat} (complete : raw.Complete config)
    (called : config.CallsFor component counter size) (held : raw.HoldsCount component counter found) :
    size = found := by
  obtain ⟨values, held, rfl⟩ := held
  cases called with
  | required demanded =>
    obtain ⟨values', held', rfl⟩ := complete.holdsCount_of_requires demanded
    rw [← values?_eq_some_iff] at held held'
    cases held.symm.trans held'
    rfl
  | optional listed =>
    obtain ⟨-, lengths, -⟩ := complete_iff.1 complete
    have length := forall_optionalCounters (P := fun counter => ∀ values,
      raw.Holds config.coreGroup.name counter values → values.length = config.cores).2
      (fun c _ => lengths c) counter listed
    exact (length values held).symm

end RawSnapshot

/-! ## All snapshots -/

namespace Trace

variable {config : Config} {raws : List RawSnapshot} {e : Error}

/-- The first snapshot that lacks a counter is reported if another one has it. Where the baseline lacks the
counter no snapshot is before it. -/
theorem checkUniform_eq_error {trace : Trace} {coreGroup : String} {c : CoreCounter}
    (failed : (trace.checkUniform coreGroup c).outcome = .error e) :
    ∃ index s, e = .missingCounter coreGroup c.name index ∧ trace.snapshots[index]? = some s ∧
      s.core c = none ∧
      ∀ i < index, ∀ s, trace.snapshots[i]? = some s → (s.core c).isSome = true := by
  unfold checkUniform at failed
  dsimp only at failed
  split at failed
  · rename_i index found
    obtain ⟨bound, differs, same⟩ := List.findIdx?_eq_some_iff_getElem.1 found
    cases reported : trace.reports c with
    | true =>
      rw [reported] at failed differs same
      cases failed
      refine ⟨index, trace.snapshots[index], rfl, List.getElem?_eq_getElem bound, ?_, ?_⟩
      · simpa using differs
      · intro i earlier s present
        obtain ⟨_, rfl⟩ := List.getElem?_eq_some_iff.1 present
        simpa [Option.isSome_iff_ne_none] using same i earlier
    | false =>
      rw [reported] at failed
      cases failed
      refine ⟨0, trace.baseline, rfl, rfl, ?_, fun i none => absurd none (Nat.not_lt_zero i)⟩
      simpa [reports] using reported
  · split at failed <;> cases failed

/-- The first stored snapshot with a defect decides. -/
theorem mapM_ofRaw_eq_error {start : Nat}
    (failed : (raws.zipIdx start).mapM (fun r => Snapshot.ofRaw config r.2 r.1) = .error e) :
    ∃ before raw after, raws = before ++ raw :: after ∧ (∀ r ∈ before, r.Complete config) ∧
      raw.Defect config (start + before.length) e := by
  obtain ⟨passed, ⟨raw, index⟩, others, split, pass, stopped⟩ := mapM_eq_error_iff.1 failed
  obtain ⟨before, rest, rfl, rfl, rest_eq⟩ := List.zipIdx_eq_append_iff.1 split
  obtain ⟨_, after, rfl, head, -⟩ := List.zipIdx_eq_cons_iff.1 rest_eq.symm
  cases head
  refine ⟨before, raw, after, rfl, fun r given => ?_, ?_⟩
  · obtain ⟨i, bound, rfl⟩ := List.getElem_of_mem given
    have listed : (before[i], start + i) ∈ before.zipIdx start := by
      rw [List.mk_add_mem_zipIdx_iff_getElem?, List.getElem?_eq_getElem bound]
    obtain ⟨s, loaded⟩ := pass _ listed
    exact (Snapshot.ofRaw_eq_ok_iff.1 loaded).1
  · rw [Snapshot.ofRaw_eq] at stopped
    rcases bind_eq_error_iff.1 stopped with checked | ⟨_, -, impossible⟩
    · exact RawSnapshot.defect_of_check checked
    · cases impossible

/-- What loading can report of stored snapshots. -/
inductive Finding (config : Config) (raws : List RawSnapshot) : Error → Prop where
  | empty (none : raws = []) : Finding config raws .emptyTrace
  | missing {component counter : String} {index size : Nat} {raw : RawSnapshot}
      (called : config.CallsFor component counter size)
      (given : raws[index]? = some raw) (absent : ∀ values, ¬raw.Holds component counter values)
      (earlier : ∀ i < index, ∀ raw, raws[i]? = some raw → ∃ values, raw.Holds component counter values) :
      Finding config raws (.missingCounter component counter index)
  | mismatch {component counter : String} {index expected found : Nat} {raw : RawSnapshot}
      (called : config.CallsFor component counter expected)
      (given : raws[index]? = some raw) (held : raw.HoldsCount component counter found)
      (differs : expected ≠ found)
      (earlier : ∀ i < index, ∀ raw, raws[i]? = some raw →
        ∃ s, ∀ place, Snapshot.ofRaw config place raw = .ok s) :
      Finding config raws (.shapeMismatch (counterText component counter index) expected found)

theorem finding_of_defect {before after : List RawSnapshot} {raw : RawSnapshot}
    (complete : ∀ r ∈ before, r.Complete config) (defect : raw.Defect config before.length e) :
    Finding config (before ++ raw :: after) e := by
  have given : (before ++ raw :: after)[before.length]? = some raw := by simp
  have passed (i : Nat) (earlier : i < before.length) (r : RawSnapshot)
      (present : (before ++ raw :: after)[i]? = some r) : r.Complete config := by
    rw [List.getElem?_append_left earlier] at present
    exact complete r (List.mem_of_getElem? present)
  cases defect with
  | missing demanded absent =>
    refine .missing (.required demanded) given absent fun i earlier r present => ?_
    obtain ⟨values, held, -⟩ := (passed i earlier r present).holdsCount_of_requires demanded
    exact ⟨values, held⟩
  | misshapen called held differs =>
    refine .mismatch called given held differs fun i earlier r present => ?_
    exact ⟨r.view config, fun place => Snapshot.ofRaw_eq_ok_iff.2 ⟨passed i earlier r present, rfl⟩⟩

theorem finding_of_checkUniform {trace : Trace} {c : CoreCounter}
    (views : trace.snapshots = raws.map (·.view config))
    (failed : (trace.checkUniform config.coreGroup.name c).outcome = .error e) :
    Finding config raws e := by
  obtain ⟨index, s, rfl, present, lacks, earlier⟩ := checkUniform_eq_error failed
  rw [views, List.getElem?_map, Option.map_eq_some_iff] at present
  obtain ⟨raw, given, rfl⟩ := present
  refine .missing (Config.callsFor_core c) given (fun values held => ?_) fun i before r present => ?_
  · rw [RawSnapshot.core_view, RawSnapshot.values?_eq_some_iff.2 held] at lacks
    cases lacks
  · rw [← RawSnapshot.isSome_values?_iff, ← RawSnapshot.core_view]
    apply earlier i before (r.view config)
    rw [views, List.getElem?_map, present]
    rfl

theorem finding_of_ofRaw (failed : (ofRaw config raws).outcome = .error e) : Finding config raws e := by
  unfold ofRaw at failed
  rw [Logged.outcome_bind, Logged.outcome_ofExcept, bind_eq_error_iff] at failed
  rcases failed with stopped | ⟨loaded, passed, failed⟩
  · obtain ⟨before, raw, after, rfl, complete, defect⟩ := mapM_ofRaw_eq_error stopped
    rw [Nat.zero_add] at defect
    exact finding_of_defect complete defect
  · obtain ⟨views, -⟩ := mapM_ofRaw_eq_ok_iff.1 passed
    cases loaded with
    | nil =>
      cases failed
      exact .empty (List.map_eq_nil_iff.1 views.symm)
    | cons baseline later =>
      simp only [Logged.outcome_bind, Logged.outcome_forM, bind_eq_error_iff] at failed
      rcases failed with uneven | ⟨_, -, noted | ⟨_, -, noted | ⟨_, -, done⟩⟩⟩
      · obtain ⟨c, -, stopped⟩ := exists_of_forM_eq_error uneven
        have views : (Trace.mk baseline later).snapshots = raws.map (·.view config) := views
        exact finding_of_checkUniform views stopped
      -- What follows the checks only notes events.
      · obtain ⟨event, -, stopped⟩ := exists_of_forM_eq_error noted
        cases stopped
      · cases noted
      · cases done

/-- A snapshot that the text of a mismatch names does not pass on its own. -/
theorem not_complete_of_mismatch {component counter : String} {index expected found : Nat}
    (failed : (ofRaw config raws).outcome =
      .error (.shapeMismatch (counterText component counter index) expected found)) :
    ∃ raw, raws[index]? = some raw ∧ ¬raw.Complete config := by
  generalize text : counterText component counter index = what at failed
  cases finding_of_ofRaw failed with
  | mismatch called given held differs earlier =>
    obtain rfl := index_eq_of_counterText_eq text
    exact ⟨_, given, fun complete => differs (complete.eq_of_holdsCount called held)⟩

/-- An error of loading tells the truth about the stored snapshots. A missing counter is one that the
configuration calls for, that the snapshot with the index lacks, and that every earlier one has. A
mismatch is about the snapshot that its text names: for a counter that should have had so many values as
were expected it has those that were found, and every earlier snapshot passes on its own. However the text
is read, it names a snapshot that does not. The trace is empty exactly if there are no snapshots, and no
other error occurs. -/
theorem ofRaw_findings (config : Config) (raws : List RawSnapshot) :
    (∀ e, (ofRaw config raws).outcome = .error e → Finding config raws e) ∧
    (∀ component counter index expected found, (ofRaw config raws).outcome =
      .error (.shapeMismatch (counterText component counter index) expected found) →
        ∃ raw, raws[index]? = some raw ∧ ∀ s place, Snapshot.ofRaw config place raw ≠ .ok s) ∧
    ((ofRaw config raws).outcome = .error .emptyTrace ↔ raws = []) := by
  refine ⟨fun e => finding_of_ofRaw, fun component counter index expected found failed => ?_,
    fun failed => ?_, ?_⟩
  · obtain ⟨raw, given, incomplete⟩ := not_complete_of_mismatch failed
    exact ⟨raw, given, fun s place passed => incomplete (Snapshot.ofRaw_eq_ok_iff.1 passed).1⟩
  · cases finding_of_ofRaw failed with
    | empty none => exact none
  · rintro rfl
    rfl

end Trace

namespace Sample

/-- A snapshot with given counters of the cores and values of an instruction cache of two instances. -/
def patchy (cores : List CoreCounter) (value : RawCounter) : RawSnapshot where
  phase := 4
  mode := 1
  components := .ofList [
    ("westmere", .ofList (cores.map fun c => (c.name, .array [16, 32]))),
    ("l1d", raw.counters (.scalar 1)),
    ("l1i", raw.counters value),
    ("l2", raw.counters (.scalar 1)),
    ("l3", raw.counters (.scalar 1))]

/-- After a baseline with all counters, a snapshot without those that a core may leave out. -/
def uneven : List RawSnapshot :=
  [raw 0 0 1 5, patchy [.instructions, .cycles] (.array [1, 2])]

/-- And then one with too few values for the instruction cache. -/
def misshapen : List RawSnapshot :=
  uneven ++ [patchy CoreCounter.all (.scalar 1)]

theorem ofRaw_uneven : (Trace.ofRaw config uneven).outcome =
    .error (.missingCounter "westmere" "mispredBranches" 1) := by
  rfl

theorem ofRaw_misshapen : (Trace.ofRaw config misshapen).outcome =
    .error (.shapeMismatch (counterText "l1i" "fhGETS" 2) 2 1) := by
  rfl

end Sample

/-- The snapshot that lacks a counter is not reported while a later one has too few values. -/
theorem Trace.ofRaw_findings_sample :
    (Trace.ofRaw Sample.config Sample.uneven).outcome =
      .error (.missingCounter "westmere" "mispredBranches" 1) ∧
    Trace.Finding Sample.config Sample.uneven (.missingCounter "westmere" "mispredBranches" 1) ∧
    (Trace.ofRaw Sample.config Sample.misshapen).outcome =
      .error (.shapeMismatch "Counter `l1i.fhGETS` of snapshot 2" 2 1) ∧
    Trace.Finding Sample.config Sample.misshapen
      (.shapeMismatch "Counter `l1i.fhGETS` of snapshot 2" 2 1) ∧
    ∃ raw, Sample.misshapen[2]? = some raw ∧
      ∀ s place, Snapshot.ofRaw Sample.config place raw ≠ .ok s := by
  obtain ⟨missing, -⟩ := Trace.ofRaw_findings Sample.config Sample.uneven
  obtain ⟨mismatch, named, -⟩ := Trace.ofRaw_findings Sample.config Sample.misshapen
  exact ⟨Sample.ofRaw_uneven, missing _ Sample.ofRaw_uneven, Sample.ofRaw_misshapen,
    mismatch _ Sample.ofRaw_misshapen, named "l1i" "fhGETS" 2 2 1 Sample.ofRaw_misshapen⟩

end IntervalStats
