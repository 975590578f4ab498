/-!
# Binary encoding

Numbers, sequences and texts as bytes. An unsigned word below 251 is one byte; a greater one is a
marker and two, four or eight bytes, the lowest first, whichever are enough. A signed word is folded
into an unsigned one, so that small magnitudes stay small. A sequence is its length and its elements,
and a text is the sequence of its UTF-8 bytes.

A reader takes what it needs from the head of a list of bytes and leaves the rest. Readers accept a
number in more bytes than it needs.
-/

namespace IntervalStats.Binary

variable {α : Type}

/-- Reads a value from the head of a list of bytes. -/
abbrev Decoder (α : Type) := List UInt8 → Option (α × List UInt8)

/-! ## Numbers -/

/-- A number in so many bytes, the lowest first. -/
def writeFixed : Nat → Nat → List UInt8
  | 0, _ => []
  | width + 1, n => UInt8.ofNat n :: writeFixed width (n / 256)

def readFixed? : Nat → Decoder Nat
  | 0, bytes => some (0, bytes)
  | _ + 1, [] => none
  | width + 1, b :: rest =>
    match readFixed? width rest with
    | some (n, rest) => some (b.toNat + 256 * n, rest)
    | none => none

def writeUnsigned (n : UInt64) : List UInt8 :=
  if n < 251 then [n.toUInt8]
  else if n < 0x10000 then 251 :: writeFixed 2 n.toNat
  else if n < 0x100000000 then 252 :: writeFixed 4 n.toNat
  else 253 :: writeFixed 8 n.toNat

/-- Reads a number whose marker stands for at most so many bytes. -/
def readUpTo? (limit : Nat) : Decoder UInt64
  | [] => none
  | b :: rest =>
    let fixed (width : Nat) : Option (UInt64 × List UInt8) :=
      if limit < width then none
      else (readFixed? width rest).map fun (n, rest) => (UInt64.ofNat n, rest)
    if b < 251 then some (b.toUInt64, rest)
    else if b = 251 then fixed 2
    else if b = 252 then fixed 4
    else if b = 253 then fixed 8
    else none

/-- Reads an unsigned word. -/
def readUnsigned? : Decoder UInt64 :=
  readUpTo? 8

/-- Reads the number of an alternative, an unsigned word of half the size. -/
def readVariant? : Decoder UInt64 :=
  readUpTo? 4

/-- Folds the sign into the lowest bit: `n` becomes `2 n`, and `-n` becomes `2 n - 1`. -/
def foldSign (n : Int64) : UInt64 :=
  if n < 0 then UInt64.ofNat (2 * n.toInt.natAbs - 1) else UInt64.ofNat (2 * n.toInt.natAbs)

def unfoldSign (n : UInt64) : Int64 :=
  if n.toNat % 2 = 0 then Int64.ofInt (n.toNat / 2) else Int64.ofInt (-(n.toNat / 2) - 1)

def writeSigned (n : Int64) : List UInt8 :=
  writeUnsigned (foldSign n)

def readSigned? : Decoder Int64 := fun bytes =>
  (readUnsigned? bytes).map fun (n, rest) => (unfoldSign n, rest)

/-! ## Sequences and texts -/

def writeSequence (write : α → List UInt8) (items : List α) : List UInt8 :=
  writeUnsigned (UInt64.ofNat items.length) ++ items.flatMap write

/-- Reads so many elements. -/
def readMany? (read? : Decoder α) : Nat → Decoder (List α)
  | 0, bytes => some ([], bytes)
  | count + 1, bytes =>
    match read? bytes with
    | none => none
    | some (item, rest) =>
      match readMany? read? count rest with
      | none => none
      | some (items, rest) => some (item :: items, rest)

def readSequence? (read? : Decoder α) : Decoder (List α) := fun bytes =>
  match readUnsigned? bytes with
  | none => none
  | some (count, rest) => readMany? read? count.toNat rest

def readByte? : Decoder UInt8
  | [] => none
  | b :: rest => some (b, rest)

/-- The UTF-8 bytes of a text. -/
def utf8 (s : String) : List UInt8 :=
  s.toUTF8.data.toList

/-- The text of UTF-8 bytes. -/
def ofUtf8? (bytes : List UInt8) : Option String :=
  String.fromUTF8? ⟨bytes.toArray⟩

def writeText (s : String) : List UInt8 :=
  writeSequence (fun b => [b]) (utf8 s)

def readText? : Decoder String := fun bytes =>
  match readSequence? readByte? bytes with
  | none => none
  | some (content, rest) => (ofUtf8? content).map fun s => (s, rest)

/-- Reads two values in turn. -/
def readPair? {β : Type} (first? : Decoder α) (second? : Decoder β) : Decoder (α × β) := fun bytes =>
  match first? bytes with
  | none => none
  | some (a, rest) => (second? rest).map fun (b, rest) => ((a, b), rest)

end IntervalStats.Binary
