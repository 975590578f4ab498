import IntervalStats.Binary
import IntervalStats.Proofs.ExactQuantity

/-!
# Texts in the order of their bytes

Names are compared by their characters, and this is the order of their UTF-8 bytes (`lt_iff_utf8_lt`). The
bytes of a character are a first byte, which also tells how many are to follow, and groups of six bits from
the upper to the lower ones. So of two characters the smaller one has the smaller byte at the first place
where the bytes differ, and what comes after them does not matter (`encode_append_lt`).
-/

namespace IntervalStats

open Binary (utf8)

/-! ## The bytes of a character -/

/-- The lower groups of six bits of a code point, from the upper to the lower ones. -/
def groupBytes (v : Nat) : Nat → List UInt8
  | 0 => []
  | k + 1 => UInt8.ofNat (v / 64 ^ k % 64 + 0x80) :: groupBytes v k

/-- The number of groups after the first byte. -/
def groupCount (v : Nat) : Nat :=
  if v ≤ 0x7f then 0 else if v ≤ 0x7ff then 1 else if v ≤ 0xffff then 2 else 3

/-- What the first byte holds beside the upper bits of the code point. -/
def leadMark : Nat → Nat
  | 0 => 0
  | 1 => 0xc0
  | 2 => 0xe0
  | _ => 0xf0

/-- The first byte, as a number. -/
def leadByte (v : Nat) : Nat :=
  v / 64 ^ groupCount v + leadMark (groupCount v)

theorem toNat_lt_of_char (c : Char) : c.val.toNat < 0x110000 := by
  have := c.valid
  unfold UInt32.isValidChar Nat.isValidChar at this
  omega

theorem encode_eq (c : Char) :
    String.utf8EncodeChar c =
      UInt8.ofNat (leadByte c.val.toNat) :: groupBytes c.val.toNat (groupCount c.val.toNat) := by
  have bound := toNat_lt_of_char c
  simp only [String.utf8EncodeChar, leadByte, groupCount]
  generalize c.val.toNat = v at bound
  split_ifs
  · simp [leadMark, groupBytes]
  · simp only [leadMark, groupBytes, Nat.reducePow, Nat.div_one]
    rw [Nat.mod_eq_of_lt (by omega : v / 64 < 32)]
  · simp only [leadMark, groupBytes, Nat.reducePow, Nat.div_one]
    rw [Nat.mod_eq_of_lt (by omega : v / 4096 < 16)]
  · simp only [leadMark, groupBytes, Nat.reducePow, Nat.div_one]
    rw [Nat.mod_eq_of_lt (by omega : v / 262144 < 8)]

theorem leadByte_lt {v : Nat} (bound : v < 0x110000) : leadByte v < 256 := by
  unfold leadByte groupCount
  split_ifs
  all_goals
    simp only [leadMark, Nat.reducePow]
    omega

section Order

variable {v w : Nat} (less : v < w)
include less

theorem groupCount_le : groupCount v ≤ groupCount w := by
  unfold groupCount
  split_ifs
  all_goals omega

/-- More groups are told by a greater first byte. -/
theorem leadByte_lt_leadByte (bound : w < 0x110000) (fewer : groupCount v < groupCount w) :
    leadByte v < leadByte w := by
  unfold leadByte
  unfold groupCount at fewer ⊢
  split_ifs at fewer ⊢
  all_goals
    simp only [leadMark, Nat.reducePow]
    omega

/-- Of two code points with the same upper bits the smaller one has the smaller groups. -/
theorem groupBytes_append_lt {k : Nat} (upper : v / 64 ^ k = w / 64 ^ k) (xs ys : List UInt8) :
    groupBytes v k ++ xs < groupBytes w k ++ ys := by
  induction k with
  | zero =>
    rw [Nat.pow_zero, Nat.div_one, Nat.div_one] at upper
    omega
  | succ k ih =>
    rw [Nat.pow_succ, ← Nat.div_div_eq_div_mul, ← Nat.div_div_eq_div_mul] at upper
    have ordered : v / 64 ^ k ≤ w / 64 ^ k := Nat.div_le_div_right (Nat.le_of_lt less)
    rw [groupBytes, groupBytes, List.cons_append, List.cons_append, List.cons_lt_cons_iff]
    rcases Nat.lt_or_eq_of_le ordered with smaller | same
    · refine .inl (UInt8.lt_iff_toNat_lt.2 ?_)
      rw [UInt8.toNat_ofNat', UInt8.toNat_ofNat']
      omega
    · exact .inr ⟨by rw [same], ih same⟩

end Order

theorem encode_append_lt {c d : Char} (less : c < d) (xs ys : List UInt8) :
    String.utf8EncodeChar c ++ xs < String.utf8EncodeChar d ++ ys := by
  have less : c.val.toNat < d.val.toNat := less
  have bound := toNat_lt_of_char d
  rw [encode_eq, encode_eq, List.cons_append, List.cons_append, List.cons_lt_cons_iff]
  generalize c.val.toNat = v at less
  generalize d.val.toNat = w at less bound
  have first : leadByte v < leadByte w → UInt8.ofNat (leadByte v) < UInt8.ofNat (leadByte w) := by
    intro smaller
    have := leadByte_lt bound
    rw [UInt8.lt_iff_toNat_lt, UInt8.toNat_ofNat', UInt8.toNat_ofNat']
    omega
  rcases Nat.lt_or_eq_of_le (groupCount_le less) with fewer | equal
  · exact .inl (first (leadByte_lt_leadByte less bound fewer))
  · have upper : v / 64 ^ groupCount v ≤ w / 64 ^ groupCount w := by
      rw [equal]
      exact Nat.div_le_div_right (Nat.le_of_lt less)
    rcases Nat.lt_or_eq_of_le upper with smaller | same
    · apply Or.inl
      apply first
      show v / 64 ^ groupCount v + leadMark (groupCount v) < w / 64 ^ groupCount w + leadMark (groupCount w)
      rw [equal] at smaller ⊢
      omega
    · refine .inr ⟨by rw [leadByte, leadByte, same, equal], ?_⟩
      rw [equal] at same ⊢
      exact groupBytes_append_lt less same xs ys

/-! ## Texts -/

theorem utf8_eq_flatMap (s : String) : utf8 s = s.toList.flatMap String.utf8EncodeChar := by
  rw [utf8, String.toUTF8_eq_toByteArray, ← String.utf8Encode_toList, List.utf8Encode, List.data_toByteArray]

theorem flatMap_encode_lt {cs ds : List Char} (less : cs < ds) :
    cs.flatMap String.utf8EncodeChar < ds.flatMap String.utf8EncodeChar := by
  induction less with
  | nil =>
    rw [List.flatMap_nil, List.flatMap_cons, encode_eq, List.cons_append]
    exact List.nil_lt_cons ..
  | rel smaller =>
    rw [List.flatMap_cons, List.flatMap_cons]
    exact encode_append_lt smaller ..
  | cons _ ih =>
    rw [List.flatMap_cons, List.flatMap_cons]
    exact List.append_left_lt ih

/-- Texts are in the order of their bytes. -/
theorem lt_iff_utf8_lt {a b : String} : a < b ↔ utf8 a < utf8 b := by
  have rises {s t : String} (less : s < t) : utf8 s < utf8 t := by
    rw [utf8_eq_flatMap, utf8_eq_flatMap]
    exact flatMap_encode_lt less
  constructor
  · exact rises
  · intro less
    by_contra notLess
    by_cases greater : b < a
    · exact List.lt_irrefl _ (List.lt_trans less (rises greater))
    · have same : a = b := String.le_antisymm (String.not_lt.1 greater) (String.not_lt.1 notLess)
      rw [same] at less
      exact List.lt_irrefl _ less

end IntervalStats
