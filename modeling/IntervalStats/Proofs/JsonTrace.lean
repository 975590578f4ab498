import Mathlib
import IntervalStats.Proofs.BinaryForm
import IntervalStats.Proofs.FileContents
import IntervalStats.Proofs.JsonValue

/-!
# JSON traces

The JSON text of stored snapshots, and that they survive it. Phase, mode and components are members of one
object, so a component may take the name of a field beside it. Then the object has two members of that
name and is refused; in every other case the snapshots are read back as they were, with all names and all
64-bit numbers (`RawSnapshot.json_round_trip`).
-/

namespace IntervalStats

open Json (Tree)

/-! ## Trees of snapshots -/

theorem RawCounter.ofTree?_toTree (counter : RawCounter) : ofTree? counter.toTree = some counter := by
  cases counter with
  | scalar value => simp [toTree, ofTree?, Tree.ofInt, Tree.unsigned?, Numeral.unsigned?_ofInt]
  | array values =>
    have items : (values.map fun v => Tree.ofInt v.toNat).mapM Tree.unsigned? = some values := by
      apply mapM_map_eq_some
      exact Numeral.unsigned?_ofInt
    rw [toTree, ofTree?, items, Option.map_some]

theorem RawCounter.canonical_toTree (counter : RawCounter) : counter.toTree.Canonical := by
  cases counter with
  | scalar value => exact Tree.canonical_ofInt _
  | array values =>
    refine .array ?_
    rw [List.forall_mem_map]
    exact fun v _ => Tree.canonical_ofInt _

namespace RawSnapshot

/-- No component has the name of the phase or of the mode, which stand beside the components. -/
def NamesApart (s : RawSnapshot) : Prop :=
  ∀ e ∈ s.components.entries, e.1 ≠ "phase" ∧ e.1 ≠ "maxineVMOperationMode"

instance decidableNamesApart : DecidablePred NamesApart := fun s =>
  inferInstanceAs (Decidable (∀ e ∈ s.components.entries, _))

/-- What an object is read as a stored snapshot for. -/
theorem ofTree?_eq_some_iff {t : Tree} {s : RawSnapshot} :
    ofTree? t = some s ↔
      ∃ members phase mode entries, t.members? = some members ∧
        Tree.only? members phaseName = some phase ∧ Tree.only? members modeName = some mode ∧
        (members.filter fun m => m.1 ≠ phaseName ∧ m.1 ≠ modeName).mapM
          (fun m => (m.2.table? RawCounter.ofTree?).map fun counters => (m.1, counters)) = some entries ∧
        phase.unsigned? = some s.phase ∧ mode.signed? = some s.mode ∧
        Table.ofList entries = s.components := by
  simp only [ofTree?, Option.bind_eq_bind, Option.bind_eq_some_iff, Option.pure_def, Option.some.injEq]
  constructor
  · rintro ⟨members, named, phase, first, mode, second, entries, read, p, gotP, m, gotM, rfl⟩
    exact ⟨members, phase, mode, entries, named, first, second, read, gotP, gotM, rfl⟩
  · obtain ⟨p, m, components⟩ := s
    rintro ⟨members, phase, mode, entries, named, first, second, read, gotP, gotM, rfl⟩
    exact ⟨members, named, phase, first, mode, second, entries, read, p, gotP, m, gotM, rfl⟩

theorem modeName_ne_phaseName : modeName ≠ phaseName := by
  decide

theorem mapM_componentTrees (components : Table (Table RawCounter)) :
    (components.entries.map fun e => (e.1, countersTree e.2)).mapM
        (fun m => (m.2.table? RawCounter.ofTree?).map fun counters => (m.1, counters)) =
      some components.entries := by
  apply mapM_map_eq_some
  intro e
  rw [countersTree, Tree.table?_ofMembers fun e _ => e.2.ofTree?_toTree, Option.map_some]

theorem ofTree?_of_namesApart {s : RawSnapshot} (apart : s.NamesApart) : ofTree? s.toTree = some s := by
  have phaseApart : ∀ m ∈ s.components.entries.map fun e => (e.1, countersTree e.2), m.1 ≠ phaseName := by
    rw [List.forall_mem_map]
    exact fun e member => (apart e member).1
  have modeApart : ∀ m ∈ s.components.entries.map fun e => (e.1, countersTree e.2), m.1 ≠ modeName := by
    rw [List.forall_mem_map]
    exact fun e member => (apart e member).2
  refine ofTree?_eq_some_iff.2 ⟨_, .ofInt s.phase.toNat, .ofInt s.mode.toInt, s.components.entries,
    Tree.members?_ofMembers _, ?_, ?_, ?_, Numeral.unsigned?_ofInt _, Numeral.signed?_ofInt _,
    s.components.ofList_entries⟩
  · apply Tree.only?_cons_of_forall_ne
    exact List.forall_mem_cons.2 ⟨modeName_ne_phaseName, phaseApart⟩
  · rw [Tree.only?_cons_of_ne modeName_ne_phaseName.symm, Tree.only?_cons_of_forall_ne modeApart]
  · rw [List.filter_cons_of_neg (by simp), List.filter_cons_of_neg (by simp), List.filter_eq_self.2,
      mapM_componentTrees]
    intro m member
    simp [phaseApart m member, modeApart m member]

theorem ofTree?_of_not_namesApart {s : RawSnapshot} (clash : ¬s.NamesApart) : ofTree? s.toTree = none := by
  apply Option.eq_none_iff_forall_ne_some.2
  intro other read
  obtain ⟨members, phase, mode, -, named, first, second, -⟩ := ofTree?_eq_some_iff.1 read
  cases named.symm.trans (Tree.members?_ofMembers _)
  simp only [NamesApart, not_forall, not_and_or, not_not] at clash
  obtain ⟨e, member, taken⟩ := clash
  have listed := List.mem_map_of_mem (f := fun e => (e.1, countersTree e.2)) member
  rcases taken with (isPhase : e.1 = phaseName) | (isMode : e.1 = modeName)
  · rw [Tree.only?_cons_of_mem (List.mem_cons_of_mem _ listed) isPhase] at first
    cases first
  · rw [Tree.only?_cons_of_ne modeName_ne_phaseName.symm, Tree.only?_cons_of_mem listed isMode] at second
    cases second

theorem ofTree?_toTree (s : RawSnapshot) :
    ofTree? s.toTree = if s.NamesApart then some s else none := by
  split
  next apart => exact ofTree?_of_namesApart apart
  next clash => exact ofTree?_of_not_namesApart clash

theorem canonical_countersTree (counters : Table RawCounter) : (countersTree counters).Canonical := by
  apply Tree.canonical_ofMembers
  rw [List.forall_mem_map]
  rintro ⟨name, counter⟩ -
  exact counter.canonical_toTree

theorem canonical_toTree (s : RawSnapshot) : s.toTree.Canonical := by
  apply Tree.canonical_ofMembers
  simp only [List.forall_mem_cons, List.forall_mem_map]
  exact ⟨Tree.canonical_ofInt _, Tree.canonical_ofInt _, fun e _ => canonical_countersTree e.2⟩

theorem parseAll?_renderAll (snapshots : List RawSnapshot) :
    parseAll? (renderAll snapshots) =
      if ∀ s ∈ snapshots, s.NamesApart then some snapshots else none := by
  have canonical : (Tree.array (snapshots.map toTree)).Canonical := by
    refine .array ?_
    rw [List.forall_mem_map]
    exact fun s _ => s.canonical_toTree
  rw [parseAll?, renderAll, canonical.parse?_compact]
  exact mapM_map_eq_ite ofTree?_toTree snapshots

/-- The JSON text of a trace is read back as it was if no component has the name of a field beside it,
and is refused otherwise; it is never read as another trace. The same holds of a trace file with this
text, where the refusal is that of malformed JSON. -/
theorem json_round_trip (snapshots : List RawSnapshot) :
    (parseAll? (renderAll snapshots) =
      if ∀ s ∈ snapshots, s.NamesApart then some snapshots else none) ∧
    ∀ files path, files.bytes? (joinPath path StatDirectory.jsonTraceFile) =
        some (Binary.utf8 (String.ofList (renderAll snapshots))) →
      (StatDirectory.readSnapshots files path).outcome =
        if ∀ s ∈ snapshots, s.NamesApart then .ok snapshots
        else .error ⟨.malformedJson, ["Unable to parse trace file "
          ++ Text.quoted (joinPath path StatDirectory.jsonTraceFile)]⟩ := by
  have read := parseAll?_renderAll snapshots
  refine ⟨read, fun files path held => ?_⟩
  rw [StatDirectory.outcome_readSnapshots_of_json held, StatDirectory.parseJsonTrace?, Binary.ofUtf8?_utf8,
    Option.bind_some, String.toList_ofList, read]
  split <;> rfl

end RawSnapshot

namespace Sample

/-- A name that must be escaped, both kinds of counters, and the extreme numbers. -/
def escapedRaws : List RawSnapshot :=
  [⟨18446744073709551615, .minValue, .ofList
    [("\"\\\n\x01é", .ofList [("", .array []), ("n", .array [0, 10])]), ("z", .ofList [("n", .scalar 7)])]⟩]

def escapedText : String :=
  "[\x7b\"phase\":18446744073709551615,\"maxineVMOperationMode\":-9223372036854775808,"
    ++ "\"\\\"\\\\\\n\\u0001é\":\x7b\"\":[],\"n\":[0,10]\x7d,\"z\":\x7b\"n\":7\x7d\x7d]"

/-- A component that is called like the mode. -/
def clashingRaws : List RawSnapshot :=
  [⟨3, 1, .ofList [("maxineVMOperationMode", .ofList [])]⟩]

/-- A directory with a JSON trace. -/
def jsonFiles (text : String) : Files :=
  .ofList [("run/zsim-ev.json", .file (Binary.utf8 text))]

theorem bytes?_jsonFiles (text : String) :
    (jsonFiles text).bytes? (joinPath "run" StatDirectory.jsonTraceFile) = some (Binary.utf8 text) := by
  unfold jsonFiles
  generalize Binary.utf8 text = bytes
  cbv

end Sample

/-- A trace with awkward names is read back, and one with a component called like the mode is refused. -/
theorem RawSnapshot.json_round_trip_sample :
    parseAll? Sample.escapedText.toList = some Sample.escapedRaws ∧
    (StatDirectory.readSnapshots (Sample.jsonFiles Sample.escapedText) "run").outcome =
      .ok Sample.escapedRaws ∧
    (StatDirectory.readSnapshots
        (Sample.jsonFiles (String.ofList (renderAll Sample.clashingRaws))) "run").outcome =
      .error ⟨.malformedJson, ["Unable to parse trace file \"run/zsim-ev.json\""]⟩ := by
  have text : String.ofList (renderAll Sample.escapedRaws) = Sample.escapedText := by decide +kernel
  have apart : ∀ s ∈ Sample.escapedRaws, s.NamesApart := by decide +kernel
  have clash : ¬∀ s ∈ Sample.clashingRaws, s.NamesApart := by decide +kernel
  have context : "Unable to parse trace file " ++ Text.quoted (joinPath "run" StatDirectory.jsonTraceFile) =
      "Unable to parse trace file \"run/zsim-ev.json\"" := by
    decide +kernel
  obtain ⟨read, ofFile⟩ := json_round_trip Sample.escapedRaws
  obtain ⟨-, refused⟩ := json_round_trip Sample.clashingRaws
  have characters : renderAll Sample.escapedRaws = Sample.escapedText.toList := by
    rw [← text, String.toList_ofList]
  rw [characters, if_pos apart] at read
  rw [text] at ofFile
  refine ⟨read, ?_, ?_⟩
  · rw [ofFile _ _ (Sample.bytes?_jsonFiles _), if_pos apart]
  · rw [refused _ _ (Sample.bytes?_jsonFiles _), if_neg clash, context]

end IntervalStats
