import Mathlib.Algebra.Order.BigOperators.Ring.Finset
import IntervalStats.Binary

/-!
# Binary forms

The bytes that stand for a number, a text or a sequence, as a relation between values and bytes that
mentions neither the writer nor the reader. Both are held against it: a writer gives a form of every
value (`unsignedForm_write`, `sequenceForm_write`), and a reader takes any form of a value from the head
of the bytes and leaves the rest as it is (`Reads`). So what is written is read back whatever follows it,
however the two are nested. The form of a sequence holds its length in an unsigned word; only the writer
needs to be told that the length is one.
-/

namespace IntervalStats.Binary

variable {α β : Type}

/-- The reader takes the forms of values from the head of the bytes and leaves what follows. -/
def Reads (read? : Decoder α) (Form : α → List UInt8 → Prop) : Prop :=
  ∀ a bytes rest, Form a bytes → read? (bytes ++ rest) = some (a, rest)

/-! ## Bytes of a number -/

/-- The number that bytes stand for, the lowest first. -/
def littleEndian : List UInt8 → Nat
  | [] => 0
  | b :: rest => b.toNat + 256 * littleEndian rest

theorem littleEndian_lt (bytes : List UInt8) : littleEndian bytes < 256 ^ bytes.length := by
  induction bytes with
  | nil => decide
  | cons b rest ih =>
    have byte := b.toNat_lt
    simp only [littleEndian, List.length_cons, Nat.pow_succ]
    omega

theorem readFixed?_append (bytes rest : List UInt8) :
    readFixed? bytes.length (bytes ++ rest) = some (littleEndian bytes, rest) := by
  induction bytes with
  | nil => rfl
  | cons b bytes ih => simp only [List.length_cons, List.cons_append, readFixed?, ih, littleEndian]

theorem length_writeFixed (width n : Nat) : (writeFixed width n).length = width := by
  induction width generalizing n with
  | zero => rfl
  | succ width ih => simp only [writeFixed, List.length_cons, ih]

theorem littleEndian_writeFixed {width n : Nat} (small : n < 256 ^ width) :
    littleEndian (writeFixed width n) = n := by
  induction width generalizing n with
  | zero =>
    have zero : n = 0 := by simpa using small
    rw [zero]
    rfl
  | succ width ih =>
    have quotient : n / 256 < 256 ^ width := by
      rw [Nat.pow_succ] at small
      exact Nat.div_lt_of_lt_mul (Nat.mul_comm _ _ ▸ small)
    have byte : (UInt8.ofNat n).toNat = n % 256 := UInt8.toNat_ofNat'
    rw [writeFixed, littleEndian, ih quotient, byte]
    exact Nat.mod_add_div n 256

/-! ## Unsigned words -/

/-- How an unsigned word is written: in one byte, or after a marker in the first of two, four and eight
bytes that are enough. -/
inductive UnsignedForm : Nat → List UInt8 → Prop where
  | one {b : UInt8} (small : b.toNat < 251) : UnsignedForm b.toNat [b]
  | two {bytes : List UInt8} (width : bytes.length = 2) (large : 251 ≤ littleEndian bytes) :
      UnsignedForm (littleEndian bytes) (251 :: bytes)
  | four {bytes : List UInt8} (width : bytes.length = 4) (large : 2 ^ 16 ≤ littleEndian bytes) :
      UnsignedForm (littleEndian bytes) (252 :: bytes)
  | eight {bytes : List UInt8} (width : bytes.length = 8) (large : 2 ^ 32 ≤ littleEndian bytes) :
      UnsignedForm (littleEndian bytes) (253 :: bytes)

theorem UnsignedForm.lt {n : Nat} {bytes : List UInt8} (form : UnsignedForm n bytes) : n < 2 ^ 64 := by
  cases form with
  | one small => omega
  | @two bytes width large | @four bytes width large | @eight bytes width large =>
    have bound := littleEndian_lt bytes
    rw [width] at bound
    omega

theorem unsignedForm_write (n : UInt64) : UnsignedForm n.toNat (writeUnsigned n) := by
  have word := n.toNat_lt
  have fixed (width : Nat) (small : n.toNat < 256 ^ width) :
      littleEndian (writeFixed width n.toNat) = n.toNat := littleEndian_writeFixed small
  unfold writeUnsigned
  simp only [UInt64.lt_iff_toNat_lt, UInt64.reduceToNat]
  split
  · rename_i small
    have byte : n.toUInt8.toNat = n.toNat := by
      rw [UInt64.toNat_toUInt8]
      omega
    have form := UnsignedForm.one (byte.trans_lt small)
    rwa [byte] at form
  · rename_i notOne
    split
    · have value := fixed 2 (by omega)
      have form := UnsignedForm.two (length_writeFixed 2 n.toNat) (by omega)
      rwa [value] at form
    · rename_i notTwo
      split
      · have value := fixed 4 (by omega)
        have form := UnsignedForm.four (length_writeFixed 4 n.toNat) (by omega)
        rwa [value] at form
      · have value := fixed 8 (by omega)
        have form := UnsignedForm.eight (length_writeFixed 8 n.toNat) (by omega)
        rwa [value] at form

theorem readUpTo?_byte {b : UInt8} (small : b.toNat < 251) (limit : Nat) (rest : List UInt8) :
    readUpTo? limit (b :: rest) = some (b.toUInt64, rest) := by
  have less : b < 251 := UInt8.lt_iff_toNat_lt.2 small
  simp only [readUpTo?, if_pos less]

theorem readUnsigned?_append {n : Nat} {bytes : List UInt8} (form : UnsignedForm n bytes)
    (rest : List UInt8) : readUnsigned? (bytes ++ rest) = some (UInt64.ofNat n, rest) := by
  cases form with
  | @one b small =>
    rw [UInt64.ofNat_uInt8ToNat]
    exact readUpTo?_byte small 8 rest
  | @two bytes width large | @four bytes width large | @eight bytes width large =>
    have fixed := readFixed?_append bytes rest
    rw [width] at fixed
    rw [List.cons_append, readUnsigned?, readUpTo?]
    simp [fixed]

theorem reads_unsigned : Reads readUnsigned? fun n => UnsignedForm n.toNat := by
  intro n bytes rest form
  rw [readUnsigned?_append form, UInt64.ofNat_toNat]

/-! ## Signed words -/

/-- The sign folded into the lowest bit. -/
def zigzag (n : Int) : Nat :=
  if 0 ≤ n then (2 * n).toNat else (-2 * n - 1).toNat

def SignedForm (n : Int) (bytes : List UInt8) : Prop :=
  UnsignedForm (zigzag n) bytes

theorem toNat_foldSign (n : Int64) : (foldSign n).toNat = zigzag n.toInt := by
  have low := n.le_toInt
  have high := n.toInt_lt
  unfold foldSign zigzag
  simp only [Int64.lt_iff_toInt_lt, Int64.toInt_zero]
  split
  · rw [UInt64.toNat_ofNat', if_neg (by omega)]
    omega
  · rw [UInt64.toNat_ofNat', if_pos (by omega)]
    omega

theorem unfoldSign_foldSign (n : Int64) : unfoldSign (foldSign n) = n := by
  unfold unfoldSign
  rw [toNat_foldSign]
  by_cases nonneg : 0 ≤ n.toInt
  · have even : zigzag n.toInt % 2 = 0 := by
      rw [zigzag, if_pos nonneg]
      omega
    have half : (zigzag n.toInt : Int) / 2 = n.toInt := by
      rw [zigzag, if_pos nonneg]
      omega
    rw [if_pos even, half, Int64.ofInt_toInt]
  · have odd : ¬zigzag n.toInt % 2 = 0 := by
      rw [zigzag, if_neg nonneg]
      omega
    have half : -((zigzag n.toInt : Int) / 2) - 1 = n.toInt := by
      rw [zigzag, if_neg nonneg]
      omega
    rw [if_neg odd, half, Int64.ofInt_toInt]

theorem signedForm_write (n : Int64) : SignedForm n.toInt (writeSigned n) := by
  rw [SignedForm, ← toNat_foldSign]
  exact unsignedForm_write (foldSign n)

theorem reads_signed : Reads readSigned? fun n => SignedForm n.toInt := by
  intro n bytes rest form
  rw [SignedForm, ← toNat_foldSign] at form
  simp only [readSigned?, reads_unsigned _ bytes rest form, Option.map_some, unfoldSign_foldSign]

/-! ## Sequences and texts -/

/-- A sequence is its length and then its elements, one after the other. -/
def SequenceForm (Form : α → List UInt8 → Prop) (items : List α) (bytes : List UInt8) : Prop :=
  ∃ head parts, UnsignedForm items.length head ∧ List.Forall₂ Form items parts ∧
    bytes = head ++ parts.flatten

theorem sequenceForm_write {Form : α → List UInt8 → Prop} {write : α → List UInt8} {items : List α}
    (short : items.length < 2 ^ 64) (each : ∀ a ∈ items, Form a (write a)) :
    SequenceForm Form items (writeSequence write items) := by
  have head := unsignedForm_write (UInt64.ofNat items.length)
  rw [UInt64.toNat_ofNat_of_lt' short] at head
  refine ⟨_, items.map write, head, ?_, ?_⟩
  · rw [List.forall₂_map_right_iff, List.forall₂_same]
    exact each
  · rw [writeSequence, List.flatMap_def]

theorem readMany?_append {Form : α → List UInt8 → Prop} {read? : Decoder α} (reads : Reads read? Form)
    {items : List α} {parts : List (List UInt8)} (forms : List.Forall₂ Form items parts)
    (rest : List UInt8) :
    readMany? read? items.length (parts.flatten ++ rest) = some (items, rest) := by
  induction forms with
  | nil => rfl
  | @cons item part items parts form _ ih =>
    have first := reads item part (parts.flatten ++ rest) form
    rw [List.flatten_cons, List.append_assoc, List.length_cons, readMany?, first]
    simp only [ih]

theorem reads_sequence {Form : α → List UInt8 → Prop} {read? : Decoder α} (reads : Reads read? Form) :
    Reads (readSequence? read?) (SequenceForm Form) := by
  rintro items bytes rest ⟨head, parts, length, forms, rfl⟩
  have count : (UInt64.ofNat items.length).toNat = items.length := UInt64.toNat_ofNat_of_lt' length.lt
  simp only [readSequence?, List.append_assoc, readUnsigned?_append length, count]
  exact readMany?_append reads forms rest

/-- A text is the sequence of its UTF-8 bytes. -/
def TextForm (s : String) (bytes : List UInt8) : Prop :=
  SequenceForm (fun b part => part = [b]) s.toUTF8.data.toList bytes

theorem textForm_write {s : String} (short : s.utf8ByteSize < 2 ^ 64) : TextForm s (writeText s) :=
  sequenceForm_write short fun _ _ => rfl

theorem ofUtf8?_utf8 (s : String) : ofUtf8? (utf8 s) = some s := by
  have valid : (⟨(utf8 s).toArray⟩ : ByteArray).IsValidUTF8 := s.isValidUTF8
  rw [ofUtf8?, String.fromUTF8?, dif_pos valid]
  rfl

theorem reads_text : Reads readText? TextForm := by
  intro s bytes rest form
  have byte : Reads readByte? fun b part => part = [b] := by
    rintro b _ rest rfl
    rfl
  have content := reads_sequence byte (utf8 s) bytes rest form
  simp only [readText?, content, ofUtf8?_utf8, Option.map_some]

/-- Two values, one after the other. -/
def PairForm (First : α → List UInt8 → Prop) (Second : β → List UInt8 → Prop) (pair : α × β)
    (bytes : List UInt8) : Prop :=
  ∃ first second, First pair.1 first ∧ Second pair.2 second ∧ bytes = first ++ second

theorem reads_pair {First : α → List UInt8 → Prop} {Second : β → List UInt8 → Prop}
    {first? : Decoder α} {second? : Decoder β} (first : Reads first? First)
    (second : Reads second? Second) : Reads (readPair? first? second?) (PairForm First Second) := by
  rintro ⟨a, b⟩ bytes rest ⟨left, right, formA, formB, rfl⟩
  have readA := first a left (right ++ rest) formA
  have readB := second b right rest formB
  simp only [readPair?, List.append_assoc, readA, readB, Option.map_some]

end IntervalStats.Binary
