import IntervalStats.Failure

/-!
# Checked words

Sums and differences of signed 64-bit words that stop with a fault when the exact result does not
fit, the same for sums and products of unsigned words, and the unsigned sum that stays at the
greatest word. The exact result of signed operands is computed in `Int`: `checkedAdd_eq_ok_iff` and
`checkedSub_eq_ok_iff` say that a word is returned exactly when it is that result. The exact result of
unsigned operands is computed in `Nat`, with lemmas of the same form. A program that runs without overflow
checks would go on with a wrapped word instead; here the program with its checks is meant throughout.
-/

namespace IntervalStats

/-- The integers that a signed 64-bit word holds. -/
def FitsWord (x : Int) : Prop :=
  -0x8000000000000000 ≤ x ∧ x < 0x8000000000000000

instance (x : Int) : Decidable (FitsWord x) :=
  inferInstanceAs (Decidable (_ ∧ _))

theorem fitsWord_toInt (a : Int64) : FitsWord a.toInt :=
  ⟨a.le_toInt, a.toInt_lt⟩

theorem toInt_ofInt_of_fitsWord {x : Int} (h : FitsWord x) : (Int64.ofInt x).toInt = x :=
  Int64.toInt_ofInt_of_le h.1 h.2

/-- The word of an exact result, or the fault if it does not fit. -/
def wordOf (x : Int) (fault : Fault) : Outcome Int64 :=
  if FitsWord x then .ok (Int64.ofInt x) else halt fault

theorem wordOf_eq_ok_iff {x : Int} {fault : Fault} {c : Int64} :
    wordOf x fault = .ok c ↔ c.toInt = x := by
  unfold wordOf
  split
  · rename_i fits
    constructor
    · intro h
      cases h
      exact toInt_ofInt_of_fitsWord fits
    · intro h
      rw [← h, Int64.ofInt_toInt]
  · rename_i unfit
    constructor
    · intro h
      cases h
    · intro h
      exact absurd (h ▸ fitsWord_toInt c) unfit

def checkedAdd (a b : Int64) : Outcome Int64 :=
  wordOf (a.toInt + b.toInt) .addOverflow

def checkedSub (a b : Int64) : Outcome Int64 :=
  wordOf (a.toInt - b.toInt) .subtractOverflow

theorem checkedAdd_eq_ok_iff {a b c : Int64} :
    checkedAdd a b = .ok c ↔ c.toInt = a.toInt + b.toInt :=
  wordOf_eq_ok_iff

theorem checkedSub_eq_ok_iff {a b c : Int64} :
    checkedSub a b = .ok c ↔ c.toInt = a.toInt - b.toInt :=
  wordOf_eq_ok_iff

/-- The unsigned word of an exact result, or the fault if it does not fit. -/
def unsignedOf (n : Nat) (fault : Fault) : Outcome UInt64 :=
  if n < UInt64.size then .ok (UInt64.ofNat n) else halt fault

theorem unsignedOf_eq_ok_iff {n : Nat} {fault : Fault} {w : UInt64} :
    unsignedOf n fault = .ok w ↔ w.toNat = n := by
  unfold unsignedOf
  split
  · rename_i fits
    constructor
    · intro h
      cases h
      exact UInt64.toNat_ofNat_of_lt' fits
    · intro h
      rw [← h, UInt64.ofNat_toNat]
  · rename_i unfit
    constructor
    · intro h
      cases h
    · intro h
      exact absurd (h ▸ w.toNat_lt_size) unfit

def checkedAddUnsigned (a b : UInt64) : Outcome UInt64 :=
  unsignedOf (a.toNat + b.toNat) .addOverflow

def checkedMulUnsigned (a b : UInt64) : Outcome UInt64 :=
  unsignedOf (a.toNat * b.toNat) .multiplyOverflow

theorem checkedAddUnsigned_eq_ok_iff {a b c : UInt64} :
    checkedAddUnsigned a b = .ok c ↔ c.toNat = a.toNat + b.toNat :=
  unsignedOf_eq_ok_iff

theorem checkedMulUnsigned_eq_ok_iff {a b c : UInt64} :
    checkedMulUnsigned a b = .ok c ↔ c.toNat = a.toNat * b.toNat :=
  unsignedOf_eq_ok_iff

/-- The sum of two unsigned words, or the greatest word if it does not fit. -/
def saturatingAdd (a b : UInt64) : UInt64 :=
  UInt64.ofNat (min (a.toNat + b.toNat) (UInt64.size - 1))

end IntervalStats
