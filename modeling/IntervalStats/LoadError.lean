import IntervalStats.Failure

/-!
# Loading errors

Why a configuration or a trace could not be loaded: the cause, and around it, outermost first, what
was being done.
-/

namespace IntervalStats

/-- Why a file could not be read or written. -/
inductive IoKind where
  | notFound
  | isADirectory
  | notADirectory
  | invalidData
  deriving DecidableEq, Repr

inductive Cause where
  /-- A finding about the data. -/
  | error (error : Error)
  /-- Text that is no JSON, or JSON of another shape. What the library that reads JSON says of it is told
  apart from the error. -/
  | malformedJson
  /-- Bytes that are no binary trace. -/
  | malformedBinary
  | io (kind : IoKind)
  /-- A finding with a wording of its own. -/
  | message (text : String)
  deriving DecidableEq, Repr

structure LoadError where
  cause : Cause
  /-- What was being done, outermost first. -/
  context : List String
  deriving DecidableEq, Repr

namespace LoadError

def of (cause : Cause) : LoadError := ⟨cause, []⟩

/-- The error while something was being done around it. -/
def within (text : String) (e : LoadError) : LoadError :=
  ⟨e.cause, text :: e.context⟩

end LoadError

variable {α : Type}

/-- Says what was being done, should it fail. -/
def inContext (text : String) (result : Except LoadError α) : Except LoadError α :=
  result.mapError (·.within text)

/-- A value that may be absent, or the cause of its absence. -/
def orCause (cause : Cause) : Option α → Except LoadError α
  | some a => .ok a
  | none => .error (.of cause)

/-- A result that may fail with a finding about the data. -/
def orError : Except Error α → Except LoadError α
  | .ok a => .ok a
  | .error e => .error (.of (.error e))

end IntervalStats
