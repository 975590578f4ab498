import IntervalStats.StatDirectory
import IntervalStats.Proofs.Outcome
import IntervalStats.Proofs.TableEntries

/-!
# File contents

What a directory tree holds after a file was written to it: the path that was written leads to a file of
just the written bytes (`Files.find_of_write`). Such a path may go through the tree in a roundabout way,
down and back up. It leads to the same names as before, as every directory on its way is still one:
writing changes what one path leads to, and that was no directory.
-/

namespace IntervalStats

namespace Files

variable {files after : Files} {here names : List String} {path : String} {bytes : List UInt8}

/-- The directory tree after a file was put at the names. -/
def withFile (files : Files) (names : List String) (bytes : List UInt8) : Files :=
  ⟨files.nodes.insert (pathOf names) (.file bytes)⟩

theorem get?_withFile {other : String} :
    (files.withFile names bytes).nodes.get? other =
      if other = pathOf names then some (.file bytes) else files.nodes.get? other :=
  lookup_insertEntry

theorem hasBelow_eq_true_iff :
    files.hasBelow here = true ↔
      ∃ other node, files.nodes.get? other = some node ∧ (pathOf here ++ "/").toList <+: other.toList := by
  simp only [hasBelow, List.any_eq_true, List.isPrefixOf_iff_prefix, Prod.exists, Table.get?_eq_some_iff]

theorem hasBelow_withFile (below : files.hasBelow here = true) :
    (files.withFile names bytes).hasBelow here = true := by
  obtain ⟨other, node, found, starts⟩ := hasBelow_eq_true_iff.1 below
  apply hasBelow_eq_true_iff.2
  by_cases same : other = pathOf names
  · exact ⟨other, .file bytes, by rw [get?_withFile, if_pos same], starts⟩
  · exact ⟨other, node, by rw [get?_withFile, if_neg same, found], starts⟩

/-- Below the root, names lead to what is stored under their path. -/
theorem nodeAt?_of_ne_nil (inner : here ≠ []) :
    files.nodeAt? here =
      (files.nodes.get? (pathOf here)).or (if files.hasBelow here then some .directory else none) := by
  rw [nodeAt?, if_neg (by simpa using inner)]
  cases files.nodes.get? (pathOf here) <;> rfl

theorem ne_nil_of_nodeAt? (free : files.nodeAt? names ≠ some .directory) : names ≠ [] := by
  rintro rfl
  exact free rfl

theorem nodeAt?_withFile_self (free : files.nodeAt? names ≠ some .directory) :
    (files.withFile names bytes).nodeAt? names = some (.file bytes) := by
  rw [nodeAt?_of_ne_nil (ne_nil_of_nodeAt? free), get?_withFile, if_pos rfl, Option.some_or]

theorem nodeAt?_congr (inner : here ≠ []) (outer : names ≠ []) (same : pathOf here = pathOf names) :
    files.nodeAt? here = files.nodeAt? names := by
  rw [nodeAt?_of_ne_nil inner, nodeAt?_of_ne_nil outer, hasBelow, hasBelow, same]

/-- Directories stay directories, as no file may take the place of one. -/
theorem nodeAt?_withFile_directory (free : files.nodeAt? names ≠ some .directory)
    (directory : files.nodeAt? here = some .directory) :
    (files.withFile names bytes).nodeAt? here = some .directory := by
  by_cases inner : here = []
  · subst inner
    rfl
  have other : pathOf here ≠ pathOf names := by
    intro same
    rw [nodeAt?_congr inner (ne_nil_of_nodeAt? free) same] at directory
    exact free directory
  rw [nodeAt?_of_ne_nil inner] at directory
  rw [nodeAt?_of_ne_nil inner, get?_withFile, if_neg other]
  cases found : files.nodes.get? (pathOf here) with
  | some node => rwa [found] at directory
  | none =>
    rw [found, Option.none_or] at directory
    have below : files.hasBelow here = true := by
      by_contra absent
      rw [if_neg absent] at directory
      cases directory
    rw [hasBelow_withFile below]
    rfl

theorem enter_eq_ok_iff {name : String} {next : List String} :
    files.enter here name = .ok next ↔
      files.nodeAt? here = some .directory ∧ descend here name = next := by
  unfold enter
  split <;> simp_all

/-- A path that leads somewhere leads there also after a file was put where no directory is. -/
theorem resolve_withFile (free : files.nodeAt? names ≠ some .directory)
    (resolved : files.resolve path = .ok here) :
    (files.withFile names bytes).resolve path = .ok here := by
  unfold resolve at resolved ⊢
  -- The induction is over the steps of the path, from whatever names it has come to.
  generalize pathSteps path = steps at resolved ⊢
  generalize ([] : List String) = start at resolved ⊢
  induction steps generalizing start with
  | nil => exact resolved
  | cons name steps ih =>
    rw [List.foldlM_cons] at resolved ⊢
    obtain ⟨next, entered, rest⟩ := bind_eq_ok_iff.1 resolved
    obtain ⟨directory, stepped⟩ := enter_eq_ok_iff.1 entered
    have again : (files.withFile names bytes).enter start name = .ok next :=
      enter_eq_ok_iff.2 ⟨nodeAt?_withFile_directory free directory, stepped⟩
    rw [again]
    exact ih next rest

theorem write_eq_ok_iff :
    files.write path bytes = .ok after ↔
      ∃ names, files.resolve path = .ok names ∧ files.nodeAt? names ≠ some .directory ∧
        files.withFile names bytes = after := by
  unfold write
  rw [bind_eq_ok_iff]
  refine exists_congr fun names => and_congr_right fun _ => ?_
  by_cases taken : files.nodeAt? names = some .directory
  · simp [taken, bind, Except.bind, throw, throwThe, MonadExceptOf.throw]
  · simp [taken, pure, Except.pure, withFile]

theorem find_eq_ok_iff {node : Node} :
    files.find path = .ok node ↔
      ∃ names, files.resolve path = .ok names ∧ files.nodeAt? names = some node := by
  unfold find
  rw [bind_eq_ok_iff]
  refine exists_congr fun names => and_congr_right fun _ => ?_
  cases files.nodeAt? names with
  | none => simp [throw, throwThe, MonadExceptOf.throw]
  | some found => simp [pure, Except.pure]

theorem bytes?_eq_some_iff : files.bytes? path = some bytes ↔ files.find path = .ok (.file bytes) := by
  unfold bytes?
  split <;> simp_all

/-- A file that was written is found with the bytes that were written. -/
theorem find_of_write (written : files.write path bytes = .ok after) :
    after.find path = .ok (.file bytes) := by
  obtain ⟨names, resolved, free, rfl⟩ := write_eq_ok_iff.1 written
  exact find_eq_ok_iff.2 ⟨names, resolve_withFile free resolved, nodeAt?_withFile_self free⟩

end Files

namespace StatDirectory

variable {files : Files} {path : String} {bytes : List UInt8}

theorem bytes?_of_writeTrace {after : Files} {file : String} {snapshots : List RawSnapshot}
    (written : writeTrace files path snapshots = .ok (file, after)) :
    after.bytes? file = some (RawSnapshot.encodeAll snapshots) := by
  simp only [writeTrace] at written
  split at written
  next done =>
    cases written
    exact Files.bytes?_eq_some_iff.2 (Files.find_of_write done)
  next => cases written

/-! ## Trace files of a directory -/

/-- A JSON trace is read whatever the binary trace file is. -/
theorem outcome_readSnapshots_of_json (held : files.bytes? (joinPath path jsonTraceFile) = some bytes) :
    (readSnapshots files path).outcome =
      inContext ("Unable to parse trace file " ++ Text.quoted (joinPath path jsonTraceFile))
        (orCause .malformedJson (parseJsonTrace? (.file bytes))) := by
  simp only [readSnapshots, openIfExists, Files.bytes?_eq_some_iff.1 held, Logged.outcome_bind,
    Logged.outcome_ofExcept, ok_bind, Logged.outcome_note]

theorem outcome_readSnapshots_of_binary
    (absent : files.find (joinPath path jsonTraceFile) = .error .notFound)
    (held : files.bytes? (joinPath path binaryTraceFile) = some bytes) :
    (readSnapshots files path).outcome =
      inContext ("Unable to parse trace file " ++ Text.quoted (joinPath path binaryTraceFile))
        (orCause .malformedBinary (parseBinaryTrace? (.file bytes))) := by
  simp only [readSnapshots, openIfExists, absent, Files.bytes?_eq_some_iff.1 held, Logged.outcome_bind,
    Logged.outcome_ofExcept, ok_bind, Logged.outcome_note]

end StatDirectory

end IntervalStats
