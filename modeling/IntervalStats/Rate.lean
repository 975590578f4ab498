import IntervalStats.Quantity

/-!
# Rates and remainders

Numbers that are made from sums and never from single intervals: quotients of two sums, and the
micro-ops that belong to no kind of their own.
-/

namespace IntervalStats

/-- Instructions per cycle. -/
def instructionsPerCycle (instructions cycles : Int64) : Except Error Float :=
  if cycles = 0 then .error (.divisionByZero .instructionsPerCycle)
  else .ok (instructions.toFloat / cycles.toFloat)

/-- A count for every thousand instructions. -/
def perKiloInstruction (count instructions : Int64) : Except Error Float :=
  if instructions = 0 then .error (.divisionByZero .perKiloInstruction)
  else .ok (count.toFloat * 1000 / instructions.toFloat)

/-- Sums of micro-ops: all of them, and those of each kind. -/
structure UopTotals where
  total : Quantity
  loads : Quantity
  stores : Quantity
  branches : Quantity
  fpAddSub : Quantity
  fpMulDiv : Quantity

namespace UopTotals

/-- The kinds of micro-ops, in the order in which they are taken away. -/
def kinds (t : UopTotals) : List Quantity :=
  [t.loads, t.stores, t.branches, t.fpAddSub, t.fpMulDiv]

/-- The micro-ops of no kind. -/
def generic (t : UopTotals) : Outcome Quantity :=
  t.kinds.foldlM Quantity.sub t.total

end UopTotals

end IntervalStats
