import IntervalStats.Decimal.Numeral
import IntervalStats.Decimal.Shortest

/-!
# Layouts of doubles

A double is written with the fewest digits that read back as it, always with a point or a power of
ten. A layout decides the rest: from which power of ten down the digits are written with a power,
whether a positive power has a sign, and which of two equally near decimals is taken. From `1e16` up
every layout uses a power.
-/

namespace IntervalStats.Decimal

structure Layout where
  /-- The least power of ten of the first digit for which no power is written. -/
  leastPlain : Int
  /-- A positive power has a plus sign. -/
  plusSign : Bool
  tie : Tie

/-- Doubles in messages and answers: no power from `1e-4` up, and no plus sign. -/
def Layout.display : Layout := ⟨-4, false, .up⟩

/-- Doubles in JSON: no power from `1e-5` up, and a plus sign. -/
def Layout.json : Layout := ⟨-5, true, .toEven⟩

/-- `coefficient · 10 ^ power` as a numeral. -/
def Layout.arrange (layout : Layout) (negative : Bool) (coefficient : Nat) (power : Int) : Numeral :=
  let ds := decimalDigits coefficient
  let first := power + ds.length - 1
  if layout.leastPlain ≤ first ∧ first < 16 then
    if 0 ≤ power then
      ⟨negative, ds ++ List.replicate power.toNat '0', some ['0'], none⟩
    else if 0 ≤ first then
      ⟨negative, ds.take (first.toNat + 1), some (ds.drop (first.toNat + 1)), none⟩
    else
      ⟨negative, ['0'], some (List.replicate (-first - 1).toNat '0' ++ ds), none⟩
  else
    let sign := if first < 0 then .minus else if layout.plusSign then .plus else .bare
    ⟨negative, ds.take 1, if ds.length = 1 then none else some (ds.drop 1),
      some (sign, decimalDigits first.natAbs)⟩

/-- The numeral of a finite double. -/
def Layout.numeral? (layout : Layout) (x : Float) : Option Numeral :=
  let bits := x.toBits
  let negative := bits >>> 63 = 1
  (Dyadic.ofBits? bits).map fun d =>
    if d.mantissa = 0 then ⟨negative, ['0'], some ['0'], none⟩
    else
      let (coefficient, power) := d.shortest layout.tie
      layout.arrange negative coefficient power

/-- A double as messages and answers show it. -/
def displayFloat (x : Float) : String :=
  match Layout.display.numeral? x with
  | some n => String.ofList n.text
  | none => if x.isNaN then "NaN" else if x < 0 then "-inf" else "inf"

end IntervalStats.Decimal
