/-!
# Shortest decimals

A positive double is `mantissa · 2 ^ exponent`. The reals that round to it form an interval around
it, whose ends belong to it exactly when the mantissa is even. `Dyadic.shortest` gives the decimal
`coefficient · 10 ^ power` of fewest digits in that interval, and of those the nearest to the double.
All comparisons are made on natural numbers, after both sides are brought to one denominator, so
nothing is rounded on the way.

The grid of `n` digits has the spacing `10 ^ (e - n + 1)`, where `10 ^ e` is the greatest power of
ten not above the double. If any point of the grid lies in the interval, so does one of the two
points next to the double, so only those are tried. Seventeen digits always suffice.
-/

namespace IntervalStats.Decimal

/-- Which of two equally near decimals is taken. -/
inductive Tie where
  | up
  | toEven
  deriving DecidableEq, Repr

/-- A positive double: `mantissa · 2 ^ exponent`. At a power of two the gap to the double below is
half of the gap above, and `narrow` holds. -/
structure Dyadic where
  mantissa : Nat
  exponent : Int
  narrow : Bool
  deriving Repr

/-- The magnitude of a finite double, from its bits. -/
def Dyadic.ofBits? (bits : UInt64) : Option Dyadic :=
  let field := (bits >>> 52).toNat % 2048
  let rest := bits.toNat % 0x10000000000000
  if field = 2047 then none
  else if field = 0 then some ⟨rest, -1074, false⟩
  else some ⟨rest + 0x10000000000000, field - 1075, rest = 0 && field ≠ 1⟩

/-- A positive fraction. -/
structure Fraction where
  num : Nat
  den : Nat

/-- `k` quarters of the unit of a double. -/
def Dyadic.quarters (d : Dyadic) (k : Nat) : Fraction :=
  ⟨k * Nat.pow 2 (d.exponent - 2).toNat, Nat.pow 2 (2 - d.exponent).toNat⟩

/-- The greatest `e` with `10 ^ e` not above a positive fraction. -/
def Fraction.decimalExponent (f : Fraction) : Int :=
  if f.den ≤ f.num then (Nat.toDigits 10 (f.num / f.den)).length - 1
  else
    let e := (Nat.toDigits 10 (f.den / f.num)).length - 1
    if f.den = f.num * Nat.pow 10 e then -(e : Int) else -(e : Int) - 1

/-- Where `coefficient · 10 ^ power` stands to a fraction. -/
def Fraction.compareTo (f : Fraction) (coefficient : Nat) (power : Int) : Ordering :=
  compare (coefficient * Nat.pow 10 power.toNat * f.den) (f.num * Nat.pow 10 (-power).toNat)

/-- The decimal lies in the interval of the reals that round to the double. -/
def Dyadic.admits (d : Dyadic) (coefficient : Nat) (power : Int) : Bool :=
  let low := d.quarters (4 * d.mantissa - if d.narrow then 1 else 2)
  let high := d.quarters (4 * d.mantissa + 2)
  let below := high.compareTo coefficient power
  let above := low.compareTo coefficient power
  if d.mantissa % 2 = 0 then below != .gt && above != .lt else below == .lt && above == .gt

/-- The nearer of the two neighbours on a grid, `low · 10 ^ power` and the next. -/
def Dyadic.nearer (d : Dyadic) (tie : Tie) (low : Nat) (power : Int) : Nat :=
  let value := d.quarters (4 * d.mantissa)
  let middle : Fraction := ⟨2 * value.num, value.den⟩
  match middle.compareTo (2 * low + 1) power with
  | .gt => low
  | .lt => low + 1
  | .eq => match tie with
    | .up => low + 1
    | .toEven => if low % 2 = 0 then low else low + 1

/-- The decimal on the grid of a spacing that lies in the interval, the nearer of two. -/
def Dyadic.onGrid? (d : Dyadic) (tie : Tie) (power : Int) : Option Nat :=
  let value := d.quarters (4 * d.mantissa)
  let low := value.num * Nat.pow 10 (-power).toNat / (Nat.pow 10 power.toNat * value.den)
  match d.admits low power, d.admits (low + 1) power with
  | true, true => some (d.nearer tie low power)
  | true, false => some low
  | false, true => some (low + 1)
  | false, false => none

/-- A coefficient without its trailing zeros, which move into the power. -/
def stripZeros (fuel coefficient : Nat) (power : Int) : Nat × Int :=
  match fuel with
  | 0 => (coefficient, power)
  | fuel + 1 =>
    if coefficient ≠ 0 ∧ coefficient % 10 = 0 then stripZeros fuel (coefficient / 10) (power + 1)
    else (coefficient, power)

/-- The decimal of fewest digits that rounds to a positive double, as coefficient and power of ten. -/
def Dyadic.shortest (d : Dyadic) (tie : Tie) : Nat × Int :=
  let e := (d.quarters (4 * d.mantissa)).decimalExponent
  let grids := (List.range 17).map fun n : Nat => e - n
  match grids.findSome? fun power => (d.onGrid? tie power).map fun c => (c, power) with
  | some (c, power) => stripZeros 18 c power
  | none => (0, 0)

end IntervalStats.Decimal
