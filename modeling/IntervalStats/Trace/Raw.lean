import IntervalStats.Binary
import IntervalStats.Json.Value

/-!
# Snapshots as stored

A snapshot as a trace file stores it: phase, operation mode, and counters by component and name. A
counter is one number or one for each instance. Snapshots are stored as JSON, where the components
stand beside phase and mode in one object, or in binary form.
-/

namespace IntervalStats

open Json (Tree)

inductive RawCounter where
  | scalar (value : UInt64)
  | array (values : List UInt64)
  deriving DecidableEq, Repr

/-- The value of each instance. -/
def RawCounter.values : RawCounter → List UInt64
  | scalar value => [value]
  | array values => values

structure RawSnapshot where
  phase : UInt64
  mode : Int64
  components : Table (Table RawCounter)

/-- A counter of a component. -/
def RawSnapshot.counter? (s : RawSnapshot) (component counter : String) : Option RawCounter :=
  (s.components.get? component).bind (·.get? counter)

/-! ## JSON -/

namespace RawCounter

def ofTree? : Tree → Option RawCounter
  | .array items => (items.mapM Tree.unsigned?).map array
  | t => t.unsigned?.map scalar

def toTree : RawCounter → Tree
  | scalar value => .ofInt value.toNat
  | array values => .array (values.map fun v => .ofInt v.toNat)

end RawCounter

namespace RawSnapshot

def phaseName : String := "phase"

def modeName : String := "maxineVMOperationMode"

/-- Reads an object that has phase and mode once each; every other member is a component. -/
def ofTree? (t : Tree) : Option RawSnapshot := do
  let members ← t.members?
  let phase ← Tree.only? members phaseName
  let mode ← Tree.only? members modeName
  let components := members.filter fun m => m.1 ≠ phaseName ∧ m.1 ≠ modeName
  let entries ← components.mapM fun m =>
    (m.2.table? RawCounter.ofTree?).map fun counters => (m.1, counters)
  return {
    phase := ← phase.unsigned?
    mode := ← mode.signed?
    components := .ofList entries }

def countersTree (counters : Table RawCounter) : Tree :=
  .ofMembers (counters.entries.map fun e => (e.1, e.2.toTree))

def toTree (s : RawSnapshot) : Tree :=
  .ofMembers ((phaseName, .ofInt s.phase.toNat) :: (modeName, .ofInt s.mode.toInt)
    :: s.components.entries.map fun e => (e.1, countersTree e.2))

/-- Reads the JSON text of a trace. -/
def parseAll? (json : List Char) : Option (List RawSnapshot) := do
  let t ← Tree.parse? json
  let items ← t.items?
  items.mapM ofTree?

/-- The JSON text of a trace. -/
def renderAll (snapshots : List RawSnapshot) : List Char :=
  (Tree.array (snapshots.map toTree)).compact

end RawSnapshot

/-! ## Binary form -/

namespace RawCounter

def encode : RawCounter → List UInt8
  | scalar value => Binary.writeUnsigned 0 ++ Binary.writeUnsigned value
  | array values => Binary.writeUnsigned 1 ++ Binary.writeSequence Binary.writeUnsigned values

def decode? : Binary.Decoder RawCounter := fun bytes =>
  match Binary.readVariant? bytes with
  | none => none
  | some (variant, rest) =>
    if variant = 0 then (Binary.readUnsigned? rest).map fun (value, rest) => (scalar value, rest)
    else if variant = 1 then
      (Binary.readSequence? Binary.readUnsigned? rest).map fun (values, rest) => (array values, rest)
    else none

end RawCounter

namespace Table

variable {α : Type}

/-- The entries of a table in order. -/
def encode (write : α → List UInt8) (t : Table α) : List UInt8 :=
  Binary.writeSequence (fun e => Binary.writeText e.1 ++ write e.2) t.entries

/-- Reads entries in any order; of several values under one name the last is kept. -/
def decode? (read? : Binary.Decoder α) : Binary.Decoder (Table α) := fun bytes =>
  (Binary.readSequence? (Binary.readPair? Binary.readText? read?) bytes).map fun (entries, rest) =>
    (Table.ofList entries, rest)

end Table

namespace RawSnapshot

def encode (s : RawSnapshot) : List UInt8 :=
  Binary.writeUnsigned s.phase ++ Binary.writeSigned s.mode
    ++ s.components.encode (Table.encode RawCounter.encode)

def decode? : Binary.Decoder RawSnapshot := fun bytes =>
  match Binary.readPair? (Binary.readPair? Binary.readUnsigned? Binary.readSigned?)
      (Table.decode? (Table.decode? RawCounter.decode?)) bytes with
  | none => none
  | some (((phase, mode), components), rest) => some (⟨phase, mode, components⟩, rest)

/-- The bytes of a trace. -/
def encodeAll (snapshots : List RawSnapshot) : List UInt8 :=
  Binary.writeSequence encode snapshots

/-- Reads the bytes of a trace; bytes after it do not matter. -/
def decodeAll? (bytes : List UInt8) : Option (List RawSnapshot) :=
  (Binary.readSequence? decode? bytes).map (·.1)

end RawSnapshot

end IntervalStats
