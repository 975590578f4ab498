/-!
# Decimal numerals

A numeral is a number as it is written: a sign, the digits before the point, the digits after it if
there is a point, and a power of ten if one is given. `Numeral.text` writes it; several numerals may
denote one number.
-/

namespace IntervalStats

/-- The decimal digits of a number, without leading zeros. -/
def decimalDigits (n : Nat) : List Char :=
  Nat.toDigits 10 n

/-- The number that decimal digits denote. -/
def ofDecimalDigits (ds : List Char) : Nat :=
  Nat.ofDigitChars 10 ds 0

theorem ofDecimalDigits_decimalDigits (n : Nat) : ofDecimalDigits (decimalDigits n) = n :=
  Nat.ofDigitChars_toDigits (by decide) (by decide)

/-- How the sign of a power of ten is written. -/
inductive ExponentSign where
  | bare
  | plus
  | minus
  deriving DecidableEq, Repr

structure Numeral where
  negative : Bool
  whole : List Char
  fraction : Option (List Char)
  exponent : Option (ExponentSign × List Char)
  deriving DecidableEq, Repr

namespace Numeral

/-- The numeral of an integer, with neither point nor power of ten. -/
def ofInt (n : Int) : Numeral where
  negative := n < 0
  whole := decimalDigits n.natAbs
  fraction := none
  exponent := none

/-- A numeral with neither point nor power of ten. -/
def isInteger (n : Numeral) : Bool :=
  n.fraction.isNone && n.exponent.isNone

/-- The number before the point. -/
def magnitude (n : Numeral) : Nat :=
  ofDecimalDigits n.whole

/-- The unsigned word that an integer numeral without a sign denotes. -/
def unsigned? (n : Numeral) : Option UInt64 :=
  if n.isInteger && !n.negative && n.magnitude < UInt64.size then some (UInt64.ofNat n.magnitude)
  else none

/-- The signed word that an integer numeral denotes; zero is written without a sign. -/
def signed? (n : Numeral) : Option Int64 :=
  if !n.isInteger then none
  else if n.negative then
    if 0 < n.magnitude && n.magnitude ≤ 0x8000000000000000 then some (Int64.ofInt (-n.magnitude)) else none
  else if n.magnitude < 0x8000000000000000 then some (Int64.ofInt n.magnitude)
  else none

/-- The mark of a power of ten and its digits. -/
def exponentText : Option (ExponentSign × List Char) → List Char
  | none => []
  | some (.bare, ds) => 'e' :: ds
  | some (.plus, ds) => 'e' :: '+' :: ds
  | some (.minus, ds) => 'e' :: '-' :: ds

/-- The numeral as characters. -/
def text (n : Numeral) : List Char :=
  (if n.negative then ['-'] else []) ++ n.whole
    ++ (match n.fraction with | none => [] | some ds => '.' :: ds)
    ++ exponentText n.exponent

end Numeral

end IntervalStats
