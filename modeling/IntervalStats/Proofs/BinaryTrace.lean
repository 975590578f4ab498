import IntervalStats.Proofs.BinaryForm
import IntervalStats.Proofs.FileContents

/-!
# Binary traces

The binary form of stored snapshots, and that they survive it. `TraceForm` is the layout of a trace file
in terms of the forms of its parts: snapshots, tables by name, texts, and counters of two kinds. A trace
is written in that layout, whatever follows it is left alone, and reading gives back the very snapshots,
tables rebuilt entry by entry included (`RawSnapshot.binary_round_trip`).

A length is written as an unsigned word. Lists of the model may be longer than any list in memory, so the
statement is about snapshots all of whose lengths are words (`RawSnapshot.Addressable`).
-/

namespace IntervalStats

open Binary

variable {α : Type}

/-! ## Layout -/

/-- A counter is the number of its kind and then one number or a sequence of them. -/
inductive CounterForm : RawCounter → List UInt8 → Prop where
  | scalar {value : UInt64} {bytes : List UInt8} (form : UnsignedForm value.toNat bytes) :
      CounterForm (.scalar value) (0 :: bytes)
  | array {values : List UInt64} {bytes : List UInt8}
      (form : SequenceForm (fun v => UnsignedForm v.toNat) values bytes) :
      CounterForm (.array values) (1 :: bytes)

/-- A table is the sequence of its entries in order of their names. -/
def TableForm (Form : α → List UInt8 → Prop) (t : Table α) : List UInt8 → Prop :=
  SequenceForm (PairForm TextForm Form) t.entries

/-- A snapshot is its phase, its mode and its components. -/
def SnapshotForm (s : RawSnapshot) : List UInt8 → Prop :=
  PairForm (PairForm (fun phase => UnsignedForm phase.toNat) fun mode => SignedForm mode.toInt)
    (TableForm (TableForm CounterForm)) ((s.phase, s.mode), s.components)

/-- A trace is the sequence of its snapshots. -/
def TraceForm : List RawSnapshot → List UInt8 → Prop :=
  SequenceForm SnapshotForm

/-! ## Lengths -/

def RawCounter.Addressable : RawCounter → Prop
  | .scalar _ => True
  | .array values => values.length < 2 ^ 64

/-- The number of entries and the lengths of the names are unsigned words. -/
structure Table.Addressable (P : α → Prop) (t : Table α) : Prop where
  size_lt : t.size < 2 ^ 64
  name_lt : ∀ e ∈ t.entries, e.1.utf8ByteSize < 2 ^ 64
  value : ∀ e ∈ t.entries, P e.2

instance RawCounter.decidableAddressable : DecidablePred RawCounter.Addressable
  | .scalar _ => inferInstanceAs (Decidable True)
  | .array values => inferInstanceAs (Decidable (values.length < 2 ^ 64))

instance Table.decidableAddressable {P : α → Prop} [DecidablePred P] :
    DecidablePred (Table.Addressable P) := fun t =>
  decidable_of_iff
    (t.size < 2 ^ 64 ∧ (∀ e ∈ t.entries, e.1.utf8ByteSize < 2 ^ 64) ∧ ∀ e ∈ t.entries, P e.2)
    ⟨fun ⟨size, names, values⟩ => ⟨size, names, values⟩, fun a => ⟨a.size_lt, a.name_lt, a.value⟩⟩

/-- Every length in the stored snapshot is an unsigned word, as all lengths in memory are. -/
def RawSnapshot.Addressable (s : RawSnapshot) : Prop :=
  s.components.Addressable (Table.Addressable RawCounter.Addressable)

instance RawSnapshot.decidableAddressable : DecidablePred RawSnapshot.Addressable := fun s =>
  inferInstanceAs (Decidable (s.components.Addressable _))

/-! ## Writing -/

theorem counterForm_encode {counter : RawCounter} (addressable : counter.Addressable) :
    CounterForm counter counter.encode := by
  cases counter with
  | scalar value => exact .scalar (unsignedForm_write value)
  | array values => exact .array (sequenceForm_write addressable fun v _ => unsignedForm_write v)

theorem tableForm_encode {Form : α → List UInt8 → Prop} {P : α → Prop} {write : α → List UInt8}
    (each : ∀ a, P a → Form a (write a)) {t : Table α} (addressable : t.Addressable P) :
    TableForm Form t (t.encode write) := by
  refine sequenceForm_write addressable.size_lt fun e member => ?_
  exact ⟨_, _, textForm_write (addressable.name_lt e member), each e.2 (addressable.value e member), rfl⟩

theorem snapshotForm_encode {s : RawSnapshot} (addressable : s.Addressable) :
    SnapshotForm s s.encode := by
  have components := tableForm_encode (fun _ => tableForm_encode fun _ => counterForm_encode) addressable
  exact ⟨_, _, ⟨_, _, unsignedForm_write s.phase, signedForm_write s.mode, rfl⟩, components, rfl⟩

/-! ## Reading -/

theorem reads_counter : Reads RawCounter.decode? CounterForm := by
  intro counter bytes rest form
  cases form with
  | @scalar value bytes form =>
    have variant : readVariant? (0 :: (bytes ++ rest)) = some (0, bytes ++ rest) :=
      readUpTo?_byte (by decide) 4 (bytes ++ rest)
    have content := reads_unsigned value bytes rest form
    simp [RawCounter.decode?, variant, content]
  | @array values bytes form =>
    have variant : readVariant? (1 :: (bytes ++ rest)) = some (1, bytes ++ rest) :=
      readUpTo?_byte (by decide) 4 (bytes ++ rest)
    have content := reads_sequence reads_unsigned values bytes rest form
    simp [RawCounter.decode?, variant, content]

theorem reads_table {Form : α → List UInt8 → Prop} {read? : Decoder α} (reads : Reads read? Form) :
    Reads (Table.decode? read?) (TableForm Form) := by
  intro t bytes rest form
  have entries := reads_sequence (reads_pair reads_text reads) t.entries bytes rest form
  simp only [Table.decode?, entries, Option.map_some, Table.ofList_entries]

theorem reads_snapshot : Reads RawSnapshot.decode? SnapshotForm := by
  intro s bytes rest form
  have parts := reads_pair (reads_pair reads_unsigned reads_signed)
    (reads_table (reads_table reads_counter)) _ bytes rest form
  simp only [RawSnapshot.decode?, parts]

/-! ## Round trip -/

/-- A trace is written in its layout. It is read back as it was, whatever bytes follow it, and a file to
which it was written has just these bytes. -/
theorem RawSnapshot.binary_round_trip (snapshots : List RawSnapshot)
    (length_lt : snapshots.length < 2 ^ 64) (addressable : ∀ s ∈ snapshots, s.Addressable) :
    TraceForm snapshots (encodeAll snapshots) ∧
    (∀ extra, decodeAll? (encodeAll snapshots ++ extra) = some snapshots) ∧
    ∀ files path file after, StatDirectory.writeTrace files path snapshots = .ok (file, after) →
      after.bytes? file = some (encodeAll snapshots) := by
  have form : TraceForm snapshots (encodeAll snapshots) :=
    sequenceForm_write length_lt fun s member => snapshotForm_encode (addressable s member)
  refine ⟨form, fun extra => ?_, fun _ _ _ _ => StatDirectory.bytes?_of_writeTrace⟩
  rw [decodeAll?, reads_sequence reads_snapshot snapshots _ extra form]
  rfl

namespace Sample

/-- Snapshots with numbers of each width, both extreme modes, and names and counters of several kinds. -/
def edgeRaws : List RawSnapshot :=
  [⟨250, .minValue, .ofList
      [("é", .ofList [("", .array []), ("n", .array [251, 65535, 65536])]), ("core", .ofList [])]⟩,
    ⟨18446744073709551615, .maxValue, .ofList [("core", .ofList [("c", .scalar 4294967296)])]⟩]

def edgeBytes : List UInt8 :=
  [2, 250, 253, 255, 255, 255, 255, 255, 255, 255, 255, 2, 4, 99, 111, 114, 101, 0, 2, 195, 169, 2, 0, 1, 0,
    1, 110, 1, 3, 251, 251, 0, 251, 255, 255, 252, 0, 0, 1, 0, 253, 255, 255, 255, 255, 255, 255, 255, 255,
    253, 254, 255, 255, 255, 255, 255, 255, 255, 1, 4, 99, 111, 114, 101, 1, 1, 99, 0, 253, 0, 0, 0, 0, 1,
    0, 0, 0]

def edgeFiles : Files :=
  .ofList [("run/out.cfg", .file [])]

end Sample

/-- Numbers at the bounds of the layout, read back and written into a directory. -/
theorem RawSnapshot.binary_round_trip_edges :
    decodeAll? (Sample.edgeBytes ++ [251]) = some Sample.edgeRaws ∧
    ∃ file after, StatDirectory.writeTrace Sample.edgeFiles "run/../run" Sample.edgeRaws = .ok (file, after) ∧
      after.bytes? file = some Sample.edgeBytes := by
  have bytes : encodeAll Sample.edgeRaws = Sample.edgeBytes := by decide +kernel
  obtain ⟨_, read, written⟩ := binary_round_trip Sample.edgeRaws (by decide) (by decide +kernel)
  rw [bytes] at read written
  have succeeds : (StatDirectory.writeTrace Sample.edgeFiles "run/../run" Sample.edgeRaws).isOk = true := by
    decide +kernel
  refine ⟨read [251], ?_⟩
  match done : StatDirectory.writeTrace Sample.edgeFiles "run/../run" Sample.edgeRaws with
  | .ok (file, after) => exact ⟨file, after, rfl, written _ _ file after done⟩
  | .error _ => simp [done, Except.isOk, Except.toBool] at succeeds

end IntervalStats
