/-!
# Failures

A computation on counters ends in one of three ways: with a value, with an `Error`, which is a
finding about the data and has a message of its own, or with a `Fault`, which stops the computation
because a machine word or an index cannot hold what is asked of it. `Outcome` is the type of all
three. Errors and faults are causes; their wording is in `Error.message` and `Fault.message`.
-/

namespace IntervalStats

/-- The quotients that may meet a zero divisor. -/
inductive Quotient where
  | instructionsPerCycle
  | perKiloInstruction
  | elapsedTime
  deriving DecidableEq, Repr

namespace Quotient

/-- What the quotient is. -/
def what : Quotient → String
  | instructionsPerCycle => "IPC"
  | perKiloInstruction => "per kilo-instruction rate"
  | elapsedTime => "elapsed time"

/-- What the quotient divides by. -/
def divisor : Quotient → String
  | instructionsPerCycle => "cycles"
  | perKiloInstruction => "instructions"
  | elapsedTime => "frequency"

end Quotient

/-- A finding about a configuration, a trace or a request. -/
inductive Error where
  /-- A snapshot lacks a counter that is called for. -/
  | missingCounter (component counter : String) (index : Nat)
  /-- A cumulative counter fell from the snapshot before. -/
  | counterDecreased (component counter : String) (index : Nat)
  /-- A cumulative counter rose by more than a signed word holds. -/
  | counterOverflowed (component counter : String) (index : Nat)
  /-- A list of values has the wrong length. -/
  | shapeMismatch (what : String) (expected found : Nat)
  /-- A quotient of sums has a zero divisor. -/
  | divisionByZero (quotient : Quotient)
  /-- The trace lacks even its baseline. -/
  | emptyTrace
  /-- No cache of this name is configured. -/
  | unknownCache (name : String)
  /-- A cache name has no level. -/
  | invalidCacheName (name : String)
  /-- A cache is configured with no instance. -/
  | noCacheInstances (name : String)
  /-- The configuration has no core group, or several. -/
  | unsupportedCoreGroups (found : Nat)
  /-- No characteristic has this code. -/
  | unsupportedCharacteristic (code : String)
  /-- A characteristic lacks an argument. -/
  | missingArgument (characteristic argument : String)
  deriving DecidableEq, Repr

/-- The wording of an error. -/
def Error.message : Error → String
  | missingCounter component counter index =>
    s!"Snapshot {index} is missing counter `{component}.{counter}`"
  | counterDecreased component counter index =>
    s!"Counter `{component}.{counter}` decreased at snapshot {index}"
  | counterOverflowed component counter index =>
    s!"Counter `{component}.{counter}` overflowed at snapshot {index}"
  | shapeMismatch what expected found => s!"{what} has {found} elements, expected {expected}"
  | divisionByZero quotient =>
    s!"Unable to compute {quotient.what}: {quotient.divisor} summed to zero"
  | emptyTrace => "Trace has no snapshots"
  | unknownCache name => s!"Unknown cache `{name}`"
  | invalidCacheName name => s!"Cache name `{name}` doesn't start with `l<level>`"
  | noCacheInstances name => s!"Cache `{name}` has no instances"
  | unsupportedCoreGroups found => s!"Expected exactly 1 core group, found {found}"
  | unsupportedCharacteristic code => s!"{code} characteristic is not supported!"
  | missingArgument characteristic argument =>
    s!"The {characteristic} characteristic requires the {argument} argument"

/-- A request that a machine word or an index cannot hold. -/
inductive Fault where
  | addOverflow
  | subtractOverflow
  | multiplyOverflow
  | indexOutOfBounds (size index : Nat)
  /-- The baseline snapshot closes no interval. -/
  | baselineInterval
  /-- Two lists are gone through together and one ends before the other. -/
  | unequalLengths
  deriving DecidableEq, Repr

/-- The wording of a fault. -/
def Fault.message : Fault → String
  | addOverflow => "attempt to add with overflow"
  | subtractOverflow => "attempt to subtract with overflow"
  | multiplyOverflow => "attempt to multiply with overflow"
  | indexOutOfBounds size index =>
    s!"index out of bounds: the len is {size} but the index is {index}"
  | baselineInterval => "Interval index must be at least 1, the baseline isn't an interval"
  | unequalLengths => "itertools: .zip_eq() reached end of one iterator before the other"

/-- Either reason for a computation to have no value. -/
inductive Failure where
  | error (error : Error)
  | fault (fault : Fault)
  deriving DecidableEq, Repr

/-- The result of a computation on counters. -/
abbrev Outcome := Except Failure

/-- Stops with an error. -/
def fail {α : Type} (e : Error) : Outcome α :=
  Except.error (Failure.error e)

/-- Stops with a fault. -/
def halt {α : Type} (f : Fault) : Outcome α :=
  Except.error (Failure.fault f)

/-- Joins two lists element by element, from the left. The first element that fails decides; lists of
unequal length are a fault where the shorter one ends. -/
def joinExact {α β γ : Type} (join : α → β → Outcome γ) : List α → List β → Outcome (List γ)
  | [], [] => .ok []
  | a :: as, b :: bs => do
    let c ← join a b
    let cs ← joinExact join as bs
    return c :: cs
  | _, _ => halt .unequalLengths

/-- A result that fails with errors only, as an outcome. -/
def Outcome.ofExcept {α : Type} : Except Error α → Outcome α
  | Except.ok a => Except.ok a
  | Except.error e => fail e

end IntervalStats
