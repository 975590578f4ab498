import IntervalStats.Aggregate
import IntervalStats.Rate
import IntervalStats.Text.Pieces

/-!
# Characteristics

A characteristic is one number taken from a trace, named by a short code such as `IPC` or `CMLDPKI`.
`Characteristic.code` writes the code, `Characteristic.parse` reads it, and
`Characteristic.evaluate` takes the number from a trace.
-/

namespace IntervalStats

/-- Which accesses to a cache count by how they went. -/
inductive AccessOutcome where
  | hits
  | misses
  | any
  deriving DecidableEq, Repr

/-- Which accesses to a cache count by what they did. -/
inductive AccessKind where
  | loads
  | stores
  | both
  deriving DecidableEq, Repr

inductive Characteristic where
  | cycles
  | instructions
  | instructionsPerCycle
  | cache (outcome : AccessOutcome) (kind : AccessKind) (perKiloInstruction : Bool)
  deriving DecidableEq, Repr

/-- The value of a characteristic: a count or a rate. -/
inductive Number where
  | integer (value : Int64)
  | float (value : Float)

def Number.text : Number → String
  | integer value => toString value.toInt
  | float value => Decimal.displayFloat value

namespace AccessOutcome

def code : AccessOutcome → List Char
  | hits => ['H']
  | misses => ['M']
  | any => ['A']

def ofLetter? : Char → Option AccessOutcome
  | 'H' => some hits
  | 'M' => some misses
  | 'A' => some any
  | _ => none

/-- The counts of a cache that make up these accesses. -/
def stats : AccessOutcome → AccessKind → List CacheStat
  | hits, .loads => [.loadHits]
  | hits, .stores => [.storeHits]
  | hits, .both => [.loadHits, .storeHits]
  | misses, .loads => [.loadMisses]
  | misses, .stores => [.storeMisses]
  | misses, .both => [.loadMisses, .storeMisses]
  | any, .loads => [.loads]
  | any, .stores => [.stores]
  | any, .both => [.loads, .stores]

end AccessOutcome

namespace AccessKind

def code : AccessKind → List Char
  | loads => ['L', 'D']
  | stores => ['S', 'T']
  | both => ['L', 'D', 'S', 'T']

def ofCode? : List Char → Option AccessKind
  | ['L', 'D'] => some loads
  | ['S', 'T'] => some stores
  | ['L', 'D', 'S', 'T'] => some both
  | _ => none

end AccessKind

namespace Characteristic

/-- The ending of the codes of rates per kilo-instruction. -/
def perKiloEnding : List Char := ['P', 'K', 'I']

/-- The code, as characters. -/
def codeChars : Characteristic → List Char
  | cycles => ['C']
  | instructions => ['I']
  | instructionsPerCycle => ['I', 'P', 'C']
  | cache outcome kind perKilo =>
    'C' :: outcome.code ++ kind.code ++ if perKilo then perKiloEnding else []

def code (c : Characteristic) : String :=
  String.ofList c.codeChars

/-- Reads which accesses count, and whether per kilo-instruction, which the ending tells. -/
def parseAccesses? (cs : List Char) : Option (AccessKind × Bool) :=
  match Text.beforeEnding? perKiloEnding cs with
  | some front => (AccessKind.ofCode? front).map (·, true)
  | none => (AccessKind.ofCode? cs).map (·, false)

/-- Reads a code: one of its own, or `C`, the outcome and then the accesses. -/
def parse? : List Char → Option Characteristic
  | ['C'] => some cycles
  | ['I'] => some instructions
  | ['I', 'P', 'C'] => some instructionsPerCycle
  | 'C' :: letter :: rest => do
    let outcome ← AccessOutcome.ofLetter? letter
    let (kind, perKilo) ← parseAccesses? rest
    return cache outcome kind perKilo
  | _ => none

/-- The characteristic of a code. -/
def parse (code : String) : Except Error Characteristic :=
  match parse? code.toList with
  | some c => .ok c
  | none => .error (.unsupportedCharacteristic code)

def needsCache : Characteristic → Bool
  | cache .. => true
  | _ => false

/-- The error of a cache characteristic without a cache. -/
def cacheMissing (c : Characteristic) : Error :=
  .missingArgument c.code "cache name"

/-- The sum of several counts of a cache, added from the left to zero. -/
def countAccesses (a : Aggregator) (name : String) (stats : List CacheStat) :
    Logged Event Failure Int64 :=
  stats.foldlM
    (fun count stat => do
      let more ← a.total (.cache name stat)
      Logged.ofExcept (checkedAdd count more))
    0

/-- The value of a characteristic; a cache matters to cache characteristics only, which fail without
one. -/
def evaluate (c : Characteristic) (a : Aggregator) (cacheName : Option String) :
    Logged Event Failure Number :=
  match c with
  | cycles => do return .integer (← a.total .cycles)
  | instructions => do return .integer (← a.total .instructions)
  | instructionsPerCycle => do
    let instructions ← a.total .instructions
    let cycles ← a.total .cycles
    let rate ← Logged.ofExcept (Outcome.ofExcept (IntervalStats.instructionsPerCycle instructions cycles))
    return .float rate
  | cache outcome kind perKilo => do
    match cacheName with
    | none => Logged.fail (.error c.cacheMissing)
    | some name =>
      let count ← countAccesses a name (outcome.stats kind)
      if perKilo then
        let instructions ← a.total .instructions
        let rate ← Logged.ofExcept (Outcome.ofExcept (perKiloInstruction count instructions))
        return .float rate
      else return .integer count

/-- What all codes mean. -/
def usage : String :=
  "Valid characteristics are:
  C - cycles
  I - instructions
  IPC - instructions per clock
  C[H|M|A][LD|ST|LDST](PKI) - cache characteristics
    [..|..] - required alternatives
    (..|..) - optional alternatives
    H       - hits
    M       - misses
    A       - accesses
    LD      - loads
    ST      - stores
    LDST    - loads and stores
    PKI     - per kilo instruction
"

end Characteristic

end IntervalStats
