import IntervalStats.Decimal.Layout

/-!
# JSON numbers as doubles

How a numeral that is no 64-bit integer becomes a double. Its digits are gathered into an unsigned
64-bit significand as long as they fit: digits before the point that do not fit count as powers of
ten, and the first digit after the point that does not fit ends the gathering. The significand is
then rounded to a double and multiplied or divided by one power of ten, so the result is near the
number denoted but need not be the nearest double. A number beyond all doubles has no value.
-/

namespace IntervalStats.Numeral

/-- A significand of at most 64 bits with one more digit, if it still fits. -/
def extend? (significand : Nat) (digit : Char) : Option Nat :=
  let next := significand * 10 + (digit.toNat - '0'.toNat)
  if next < UInt64.size then some next else none

/-- Gathers the digits before the point; gives the significand and the number of digits left out. -/
def gatherWhole : Nat → List Char → Nat × Nat
  | significand, [] => (significand, 0)
  | significand, d :: rest =>
    match extend? significand d with
    | some next => gatherWhole next rest
    | none => (significand, rest.length + 1)

/-- Gathers the digits after the point; gives the significand and the number of digits taken in. -/
def gatherFraction : Nat → Nat → List Char → Nat × Nat
  | significand, taken, [] => (significand, taken)
  | significand, taken, d :: rest =>
    match extend? significand d with
    | some next => gatherFraction next (taken + 1) rest
    | none => (significand, taken)

/-- A power of ten as a double. -/
def powerOfTen (n : Nat) : Float :=
  Float.ofScientific 1 false n

/-- A double times a power of ten; a power below `1e-308` is reached in steps of `1e308`. -/
def scale? (x : Float) (power : Int) : Option Float :=
  if 0 ≤ power then
    if power ≤ 308 then
      let y := x * powerOfTen power.toNat
      if y.isInf then none else some y
    else if x == 0 then some x
    else none
  else if -308 ≤ power then some (x / powerOfTen (-power).toNat)
  else if x == 0 then some x
  else scale? (x / powerOfTen 308) (power + 308)
termination_by (-power).toNat
decreasing_by omega

/-- The power of ten that a numeral gives, or its sign if the power passes 32 bits. -/
def givenPower (n : Numeral) : Except Bool Int :=
  match n.exponent with
  | none => .ok 0
  | some (sign, ds) =>
    let power := ofDecimalDigits ds
    if power < 0x80000000 then .ok (if sign = .minus then -(power : Int) else power)
    else .error (sign = .minus)

/-- The double of a numeral, if there is one. -/
def double? (n : Numeral) : Option Float :=
  let (whole, skipped) := gatherWhole 0 n.whole
  let (significand, taken) := gatherFraction whole 0 (n.fraction.getD [])
  let magnitude :=
    match n.givenPower with
    | .ok power => scale? (UInt64.ofNat significand).toFloat (power + skipped - taken)
    | .error negative => if negative || significand = 0 then some 0 else none
  magnitude.map fun x => if n.negative then -x else x

/-- A numeral as a value keeps it: an integer that fits a word stays, and everything else becomes the
shortest numeral of its double. -/
def settle? (n : Numeral) : Option Numeral :=
  if n.unsigned?.isSome || n.signed?.isSome then some n
  else n.double?.bind Decimal.Layout.json.numeral?

end IntervalStats.Numeral
