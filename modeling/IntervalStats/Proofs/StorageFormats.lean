import IntervalStats.Proofs.BinaryTrace
import IntervalStats.Proofs.GroupTranslation
import IntervalStats.Proofs.JsonSize
import IntervalStats.Proofs.JsonTrace

/-!
# Storage formats

A directory holds its trace as JSON text or in binary form, and both are loaded alike: as the
configuration of the one text and the trace of the one list of snapshots, or with the same error in the
same contexts (`StatDirectory.formats_load_alike`). The binary form has lengths of 64 bits. That is enough
for whatever was read from a text in memory, as no list and no name of it is longer than the text.
-/

namespace IntervalStats

open Json (Tree)

/-! ## Lengths of what was read -/

theorem Table.addressable_ofList {α : Type} {P : α → Prop} {entries : List (String × α)}
    (length_lt : entries.length < 2 ^ 64) (each : ∀ e ∈ entries, e.1.utf8ByteSize < 2 ^ 64 ∧ P e.2) :
    (Table.ofList entries).Addressable P where
  size_lt := Nat.lt_of_le_of_lt size_ofList_le length_lt
  name_lt e member := (each e (mem_of_mem_ofList member)).1
  value e member := (each e (mem_of_mem_ofList member)).2

/-- A table that is read from members of an object is no longer than the text of the object. -/
theorem Table.addressable_of_members {α : Type} {P : α → Prop} {read? : Tree → Option α}
    {members chosen : List (String × Tree)} {entries : List (String × α)}
    (small : (Tree.ofMembers members).bytes < 2 ^ 64) (among : chosen.Sublist members)
    (reads : ∀ t a, t.bytes < 2 ^ 64 → read? t = some a → P a)
    (read : chosen.mapM (fun m => (read? m.2).map fun value => (m.1, value)) = some entries) :
    (Table.ofList entries).Addressable P := by
  have each := mapM_eq_some_iff.1 read
  apply addressable_ofList
  · have counted := Tree.length_members_le (members.map fun m => (some m.1, m.2))
    have fewer := among.length_le
    rw [List.length_map, ← Tree.ofMembers] at counted
    rw [← each.length_eq]
    omega
  · intro e member
    obtain ⟨⟨name, value⟩, listed, same⟩ := exists_mem_of_forall₂ each.flip member
    obtain ⟨a, got, rfl⟩ := Option.map_eq_some_iff.1 same
    have within : name.utf8ByteSize + value.bytes ≤ (Tree.ofMembers members).bytes :=
      Tree.bytes_le_of_mem_members
        (List.mem_map_of_mem (f := fun m : String × Tree => (some m.1, m.2)) (among.subset listed))
    exact ⟨Nat.lt_of_le_of_lt (Nat.le_trans (Nat.le_add_right ..) within) small,
      reads value a (by omega) got⟩

theorem RawCounter.addressable_of_ofTree? {t : Tree} {counter : RawCounter} (small : t.bytes < 2 ^ 64)
    (read : ofTree? t = some counter) : counter.Addressable := by
  unfold ofTree? at read
  split at read
  next items =>
    obtain ⟨values, each, rfl⟩ := Option.map_eq_some_iff.1 read
    have counted := Tree.length_items_le items
    have same := (mapM_eq_some_iff.1 each).length_eq
    change values.length < 2 ^ 64
    omega
  next =>
    obtain ⟨value, -, rfl⟩ := Option.map_eq_some_iff.1 read
    trivial

theorem Table.addressable_of_table? {t : Tree} {counters : Table RawCounter} (small : t.bytes < 2 ^ 64)
    (read : t.table? RawCounter.ofTree? = some counters) : counters.Addressable RawCounter.Addressable := by
  obtain ⟨members, entries, named, each, rfl⟩ := Tree.table?_eq_some_iff.1 read
  obtain rfl := Tree.eq_ofMembers_of_members? named
  exact addressable_of_members small (List.Sublist.refl _)
    (fun _ _ => RawCounter.addressable_of_ofTree?) each

namespace RawSnapshot

theorem addressable_of_ofTree? {t : Tree} {s : RawSnapshot} (small : t.bytes < 2 ^ 64)
    (read : ofTree? t = some s) : s.Addressable := by
  obtain ⟨members, _, _, entries, named, -, -, each, -, -, table⟩ := ofTree?_eq_some_iff.1 read
  obtain rfl := Tree.eq_ofMembers_of_members? named
  rw [Addressable, ← table]
  exact Table.addressable_of_members small List.filter_sublist (fun _ _ => Table.addressable_of_table?) each

/-- A text in memory has no trace that is too long for the binary form. -/
theorem addressable_of_parseAll? {json : String} {snapshots : List RawSnapshot}
    (small : json.utf8ByteSize < 2 ^ 64) (parsed : parseAll? json.toList = some snapshots) :
    snapshots.length < 2 ^ 64 ∧ ∀ s ∈ snapshots, s.Addressable := by
  simp only [parseAll?, Option.bind_eq_bind, Option.bind_eq_some_iff] at parsed
  obtain ⟨t, text, items, isArray, each⟩ := parsed
  have within := Tree.bytes_le text
  rw [Json.byteCount, String.ofList_toList] at within
  cases t with
  | array listed =>
    cases isArray
    have all := mapM_eq_some_iff.1 each
    have counted := Tree.length_items_le items
    refine ⟨by rw [← all.length_eq]; omega, fun s member => ?_⟩
    obtain ⟨item, given, read⟩ := exists_mem_of_forall₂ all.flip member
    have inner := Tree.bytes_le_of_mem_items given
    exact addressable_of_ofTree? (by omega) read
  | _ => cases isArray

theorem decodeAll?_encodeAll {snapshots : List RawSnapshot} (length_lt : snapshots.length < 2 ^ 64)
    (addressable : ∀ s ∈ snapshots, s.Addressable) :
    decodeAll? (encodeAll snapshots) = some snapshots := by
  have form : TraceForm snapshots (encodeAll snapshots) :=
    Binary.sequenceForm_write length_lt fun s member => snapshotForm_encode (addressable s member)
  have read := Binary.reads_sequence reads_snapshot snapshots _ [] form
  rw [List.append_nil] at read
  rw [decodeAll?, read, Option.map_some]

end RawSnapshot

namespace StatDirectory

/-! ## Directories -/

/-- A directory with the text of a configuration and the text of a trace. A binary trace file beside them
may be there or not, with whatever bytes. -/
structure HoldsJson (files : Files) (path config trace : String) : Prop where
  config : files.bytes? (joinPath path configFile) = some (Binary.utf8 config)
  trace : files.bytes? (joinPath path jsonTraceFile) = some (Binary.utf8 trace)

/-- A directory with the text of a configuration and a binary trace, and no JSON trace. -/
structure HoldsBinary (files : Files) (path config : String) (trace : List UInt8) : Prop where
  config : files.bytes? (joinPath path configFile) = some (Binary.utf8 config)
  noJson : files.find (joinPath path jsonTraceFile) = .error .notFound
  trace : files.bytes? (joinPath path binaryTraceFile) = some trace

/-- What the text of a configuration and the snapshots of a trace are loaded as. -/
def loadRaw (config : String) (snapshots : List RawSnapshot) : Except LoadError (Config × Trace) := do
  let config ← inContext "Unable to load config" (Config.ofGroupText config.toList)
  let trace ← (Trace.ofRaw config snapshots).outcome.mapError fun e => ⟨.error e, ["Unable to load trace"]⟩
  return (config, trace)

theorem loadRaw_eq_ok_iff {config : String} {snapshots : List RawSnapshot} {c : Config} {t : Trace} :
    loadRaw config snapshots = .ok (c, t) ↔
      Config.ofGroupText config.toList = .ok c ∧ (Trace.ofRaw c snapshots).outcome = .ok t := by
  simp only [loadRaw, inContext, bind_eq_ok_iff, mapError_eq_ok_iff, pure_eq_ok_iff, Prod.mk.injEq]
  constructor
  · rintro ⟨_, read, _, loaded, rfl, rfl⟩
    exact ⟨read, loaded⟩
  · rintro ⟨read, loaded⟩
    exact ⟨c, read, t, loaded, rfl, rfl⟩

/-- Once the trace is read, no path and no storage format matters. -/
theorem outcome_load {files : Files} {path config : String} {snapshots : List RawSnapshot}
    (held : files.bytes? (joinPath path configFile) = some (Binary.utf8 config))
    (read : (readSnapshots files path).outcome = .ok snapshots) :
    (load files path).outcome = loadRaw config snapshots := by
  have text : files.readText (joinPath path configFile) = .ok config := by
    simp only [Files.readText, Files.bytes?_eq_some_iff.1 held, ok_bind, Binary.ofUtf8?_utf8]
    rfl
  simp only [load, text, Except.mapError, inContext, Logged.outcome_bind, Logged.outcome_ofExcept, ok_bind,
    Logged.outcome_note, read, Logged.outcome_mapError, Logged.outcome_pure, loadRaw]
  rfl

variable {files others : Files} {path other config json : String} {snapshots : List RawSnapshot}

theorem outcome_load_of_json (holds : HoldsJson files path config json)
    (parsed : RawSnapshot.parseAll? json.toList = some snapshots) :
    (load files path).outcome = loadRaw config snapshots := by
  apply outcome_load holds.config
  rw [outcome_readSnapshots_of_json holds.trace, parseJsonTrace?, Binary.ofUtf8?_utf8, Option.bind_some,
    parsed]
  rfl

theorem outcome_load_of_binary {bytes : List UInt8} (holds : HoldsBinary files path config bytes)
    (decoded : RawSnapshot.decodeAll? bytes = some snapshots) :
    (load files path).outcome = loadRaw config snapshots := by
  apply outcome_load holds.config
  rw [outcome_readSnapshots_of_binary holds.noJson holds.trace, parseBinaryTrace?, decoded]
  rfl

/-- A directory with the JSON text of a trace is loaded like one with the bytes that are written for the
trace of that text: both fail alike, or both give the configuration and the trace. -/
theorem formats_load_alike {base after : Files} {place file : String} {bytes : List UInt8}
    (parsed : RawSnapshot.parseAll? json.toList = some snapshots)
    (json_lt : json.utf8ByteSize < 2 ^ 64)
    (written : writeTrace base place snapshots = .ok (file, after))
    (content : after.bytes? file = some bytes)
    (holdsJson : HoldsJson files path config json)
    (holdsBinary : HoldsBinary others other config bytes) :
    (load files path).outcome = (load others other).outcome ∧
    ∀ c t, (load files path).outcome = .ok (c, t) ↔
      Config.ofGroupText config.toList = .ok c ∧ (Trace.ofRaw c snapshots).outcome = .ok t := by
  obtain ⟨length_lt, addressable⟩ := RawSnapshot.addressable_of_parseAll? json_lt parsed
  have decoded := RawSnapshot.decodeAll?_encodeAll length_lt addressable
  obtain rfl : RawSnapshot.encodeAll snapshots = bytes :=
    Option.some.inj ((bytes?_of_writeTrace written).symm.trans content)
  rw [outcome_load_of_json holdsJson parsed, outcome_load_of_binary holdsBinary decoded]
  exact ⟨rfl, fun c t => loadRaw_eq_ok_iff⟩

end StatDirectory

namespace Sample

/-- A directory with a JSON trace and a binary trace file that is no trace. -/
def jsonDirectory (config json : String) : Files :=
  .ofList [("json/out.cfg", .file (Binary.utf8 config)), ("json/zsim-ev.json", .file (Binary.utf8 json)),
    ("json/zsim-ev.bin", .file [255])]

/-- A directory with a binary trace only. -/
def binaryDirectory (config : String) (trace : List UInt8) : Files :=
  .ofList [("bin/out.cfg", .file (Binary.utf8 config)), ("bin/zsim-ev.bin", .file trace)]

/-- The text of the configuration of the sample. -/
def configText : String :=
  String.ofList layout.print

theorem holdsJson (config json : String) :
    StatDirectory.HoldsJson (jsonDirectory config json) "json" config json := by
  unfold jsonDirectory
  constructor
  · generalize Binary.utf8 config = text, Binary.utf8 json = trace
    cbv
  · generalize Binary.utf8 config = text, Binary.utf8 json = trace
    cbv

theorem holdsBinary {trace : List UInt8}
    (noJson : (binaryDirectory configText trace).find (joinPath "bin/" StatDirectory.jsonTraceFile) =
      .error .notFound) :
    StatDirectory.HoldsBinary (binaryDirectory configText trace) "bin/" configText trace := by
  refine ⟨?_, noJson, ?_⟩
  · unfold binaryDirectory
    generalize Binary.utf8 configText = text
    cbv
  · unfold binaryDirectory
    generalize Binary.utf8 configText = text
    cbv

theorem exists_written {snapshots : List RawSnapshot}
    (succeeds : (StatDirectory.writeTrace (.ofList []) "" snapshots).isOk = true) :
    ∃ file after, StatDirectory.writeTrace (.ofList []) "" snapshots = .ok (file, after) := by
  obtain ⟨⟨file, after⟩, written⟩ := isOk_iff.1 succeeds
  exact ⟨file, after, written⟩

theorem loadRaw_escaped :
    StatDirectory.loadRaw configText escapedRaws =
      .error ⟨.error (.missingCounter "westmere" "instrs" 0), ["Unable to load trace"]⟩ := by
  rw [StatDirectory.loadRaw, configText, String.toList_ofList, ofGroupText_layout]
  rfl

theorem parseAll?_escapedText : RawSnapshot.parseAll? escapedText.toList = some escapedRaws := by
  have text : String.ofList (RawSnapshot.renderAll escapedRaws) = escapedText := by decide +kernel
  have apart : ∀ s ∈ escapedRaws, s.NamesApart := by decide +kernel
  rw [← text, String.toList_ofList, RawSnapshot.parseAll?_renderAll, if_pos apart]

/-- A snapshot with the counters that the configuration of the sample calls for, and no others. -/
def briefRaw (n : UInt64) : RawSnapshot where
  phase := n
  mode := 0
  components := .ofList [
    ("westmere", .ofList [("instrs", .array [n, 2 * n]), ("cycles", .array [n, n])]),
    ("l1d", counters ["fhGETS", "hGETS", "mGETS", "fhGETX", "hGETX", "mGETXIM", "mGETXSM"] (.scalar n)),
    ("l1i", counters ["fhGETS", "hGETS", "mGETS", "fhGETX", "hGETX", "mGETXIM", "mGETXSM"] (.array [n, 0])),
    ("l2", counters ["hGETS", "mGETS", "hGETX", "mGETXIM", "mGETXSM"] (.scalar n)),
    ("l3", counters ["hGETS", "mGETS", "hGETX", "mGETXIM", "mGETXSM"] (.scalar n))]
where
  counters (names : List String) (value : RawCounter) : Table RawCounter :=
    .ofList (names.map fun name => (name, value))

def briefTrace : Trace :=
  ⟨(briefRaw 1).view config, [(briefRaw 3).view config]⟩

theorem briefTrace_loaded : (Trace.ofRaw config [briefRaw 1, briefRaw 3]).outcome = .ok briefTrace :=
  Trace.ofRaw_of_checks (by decide +kernel) (by decide +kernel)

def briefText : String :=
  String.ofList (RawSnapshot.renderAll [briefRaw 1, briefRaw 3])

theorem briefText_lt : briefText.utf8ByteSize < 2 ^ 64 := by
  have length : (RawSnapshot.renderAll [briefRaw 1, briefRaw 3]).length < 2 ^ 62 := by decide +kernel
  have bytes := Json.byteCount_le (RawSnapshot.renderAll [briefRaw 1, briefRaw 3])
  rw [Json.byteCount, ← briefText] at bytes
  omega

theorem parseAll?_briefText : RawSnapshot.parseAll? briefText.toList = some [briefRaw 1, briefRaw 3] := by
  have apart : ∀ s ∈ [briefRaw 1, briefRaw 3], s.NamesApart := by decide +kernel
  rw [briefText, String.toList_ofList, RawSnapshot.parseAll?_renderAll, if_pos apart]

end Sample

/-- A trace is loaded from both formats, and one without the counters that its configuration calls for is
refused alike. -/
theorem StatDirectory.formats_load_alike_sample :
    (∃ file after bytes, writeTrace (.ofList []) "" [Sample.briefRaw 1, Sample.briefRaw 3] = .ok (file, after) ∧
      after.bytes? file = some bytes ∧
      (load (Sample.jsonDirectory Sample.configText Sample.briefText) "json").outcome =
        .ok (Sample.config, Sample.briefTrace) ∧
      (load (Sample.binaryDirectory Sample.configText bytes) "bin/").outcome =
        .ok (Sample.config, Sample.briefTrace)) ∧
    ∃ file after bytes, writeTrace (.ofList []) "" Sample.escapedRaws = .ok (file, after) ∧
      after.bytes? file = some bytes ∧
      (load (Sample.jsonDirectory Sample.configText Sample.escapedText) "json").outcome =
        .error ⟨.error (.missingCounter "westmere" "instrs" 0), ["Unable to load trace"]⟩ ∧
      (load (Sample.binaryDirectory Sample.configText bytes) "bin/").outcome =
        .error ⟨.error (.missingCounter "westmere" "instrs" 0), ["Unable to load trace"]⟩ := by
  constructor
  · obtain ⟨file, after, written⟩ := @Sample.exists_written [Sample.briefRaw 1, Sample.briefRaw 3]
      (by decide +kernel)
    have content := bytes?_of_writeTrace written
    obtain ⟨alike, found⟩ := formats_load_alike Sample.parseAll?_briefText Sample.briefText_lt written content
      (Sample.holdsJson Sample.configText _) (Sample.holdsBinary (by decide +kernel))
    have configured : Config.ofGroupText Sample.configText.toList = .ok Sample.config := by
      rw [Sample.configText, String.toList_ofList, Sample.ofGroupText_layout]
    have loaded := (found _ _).2 ⟨configured, Sample.briefTrace_loaded⟩
    exact ⟨file, after, _, written, content, loaded, alike.symm.trans loaded⟩
  · obtain ⟨file, after, written⟩ := @Sample.exists_written Sample.escapedRaws (by decide +kernel)
    have content := bytes?_of_writeTrace written
    have holdsJson := Sample.holdsJson Sample.configText Sample.escapedText
    have refused := (outcome_load_of_json holdsJson Sample.parseAll?_escapedText).trans Sample.loadRaw_escaped
    obtain ⟨alike, -⟩ := formats_load_alike Sample.parseAll?_escapedText (by decide +kernel) written content
      holdsJson (Sample.holdsBinary (by decide +kernel))
    exact ⟨file, after, _, written, content, refused, alike.symm.trans refused⟩

end IntervalStats
