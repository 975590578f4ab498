import Mathlib.Data.List.Infix
import IntervalStats.Checked
import IntervalStats.ModeSet
import IntervalStats.Proofs.JsonToken
import IntervalStats.Proofs.Outcome

/-!
# Signed words in decimal

What a text means as an integer is said without the reader: a sign, digits, and the number that the digits
denote (`Denotes`). `readWord` goes from digit to digit and looks at the limit of the sign after each of
them. It reads exactly the texts that denote an integer which a word holds (`readWord_eq_ok_iff`). Of a text
that it refuses it says that a beginning denotes too large or too small an integer, whatever comes after that
beginning, and else that the text denotes none (`readWord_eq_error_iff`).
-/

namespace IntervalStats

/-- How the sign of an integer is written. -/
inductive SignMark where
  | bare
  | plus
  | minus

namespace SignMark

def text : SignMark → List Char
  | bare => []
  | plus => ['+']
  | minus => ['-']

/-- The integer of a sign and a magnitude. -/
def apply : SignMark → Nat → Int
  | minus, n => -n
  | _, n => n

/-- The greatest magnitude of a word with this sign. -/
def limit : SignMark → Nat
  | minus => 0x8000000000000000
  | _ => 0x7fffffffffffffff

/-- The error of a magnitude beyond the limit. -/
def excess : SignMark → IntegerError
  | minus => .tooSmall
  | _ => .tooLarge

theorem fitsWord_apply_iff {sign : SignMark} {n : Nat} : FitsWord (sign.apply n) ↔ n ≤ sign.limit := by
  cases sign with
  | bare =>
    simp only [FitsWord, apply, limit]
    omega
  | plus =>
    simp only [FitsWord, apply, limit]
    omega
  | minus =>
    simp only [FitsWord, apply, limit]
    omega

end SignMark

/-- The text is a sign, if any, and at least one digit, and this is the integer it denotes. -/
def Denotes (cs : List Char) (n : Int) : Prop :=
  ∃ (sign : SignMark) (digits : List Char), cs = sign.text ++ digits ∧ digits ≠ [] ∧
    (∀ c ∈ digits, c.isDigit = true) ∧ n = sign.apply (ofDecimalDigits digits)

/-- Why the text is no signed word. A beginning that denotes an integer out of range decides, and else the
text denotes no integer at all. -/
inductive Refuses (cs : List Char) : IntegerError → Prop where
  | tooLarge {start : List Char} {n : Int} :
      start <+: cs → Denotes start n → 0x7fffffffffffffff < n → Refuses cs .tooLarge
  | tooSmall {start : List Char} {n : Int} :
      start <+: cs → Denotes start n → n < -0x8000000000000000 → Refuses cs .tooSmall
  | invalidDigit :
      (∀ start n, start <+: cs → Denotes start n → FitsWord n) → (∀ n, ¬Denotes cs n) →
      Refuses cs .invalidDigit

/-! ## Magnitudes -/

section Magnitude

variable {limit m n : Nat} {excess e : IntegerError} {cs digits : List Char}

theorem le_ofDigitChars (ds : List Char) (m : Nat) : m ≤ Nat.ofDigitChars 10 ds m := by
  induction ds generalizing m with
  | nil => exact Nat.le_refl m
  | cons d ds ih =>
    have rest := ih (10 * m + (d.toNat - '0'.toNat))
    rw [Nat.ofDigitChars_cons]
    omega

theorem readMagnitude_cons_digit {c : Char} (digit : c.isDigit = true) (rest : List Char) :
    readMagnitude limit excess m (c :: rest) =
      if limit < 10 * m + (c.toNat - '0'.toNat) then .error excess
      else readMagnitude limit excess (10 * m + (c.toNat - '0'.toNat)) rest := by
  rw [readMagnitude, digit, Nat.mul_comm m 10]
  rfl

theorem readMagnitude_of_digits (isDigits : ∀ c ∈ digits, c.isDigit = true)
    (within : Nat.ofDigitChars 10 digits m ≤ limit) :
    readMagnitude limit excess m digits = .ok (Nat.ofDigitChars 10 digits m) := by
  induction digits generalizing m with
  | nil => rfl
  | cons d ds ih =>
    obtain ⟨digit, others⟩ := List.forall_mem_cons.1 isDigits
    rw [Nat.ofDigitChars_cons] at within ⊢
    have small := le_ofDigitChars ds (10 * m + (d.toNat - '0'.toNat))
    rw [readMagnitude_cons_digit digit, if_neg (by omega), ih others within]

/-- Digits beyond the limit are refused, whatever comes after them. -/
theorem readMagnitude_of_beyond (isDigits : ∀ c ∈ digits, c.isDigit = true) (start : m ≤ limit)
    (beyond : limit < Nat.ofDigitChars 10 digits m) (rest : List Char) :
    readMagnitude limit excess m (digits ++ rest) = .error excess := by
  induction digits generalizing m with
  | nil =>
    rw [Nat.ofDigitChars_nil] at beyond
    omega
  | cons d ds ih =>
    obtain ⟨digit, others⟩ := List.forall_mem_cons.1 isDigits
    rw [Nat.ofDigitChars_cons] at beyond
    rw [List.cons_append, readMagnitude_cons_digit digit]
    split
    · rfl
    · rename_i within
      exact ih others (by omega) beyond

theorem digits_of_readMagnitude_eq_ok (start : m ≤ limit) (read : readMagnitude limit excess m cs = .ok n) :
    (∀ c ∈ cs, c.isDigit = true) ∧ n = Nat.ofDigitChars 10 cs m ∧ n ≤ limit := by
  induction cs generalizing m with
  | nil =>
    cases read
    exact ⟨List.forall_mem_nil _, rfl, start⟩
  | cons c rest ih =>
    cases digit : c.isDigit with
    | false =>
      rw [readMagnitude, digit] at read
      cases read
    | true =>
      rw [readMagnitude_cons_digit digit] at read
      split at read
      · cases read
      · rename_i within
        obtain ⟨others, value, small⟩ := ih (by omega) read
        exact ⟨List.forall_mem_cons.2 ⟨digit, others⟩, value, small⟩

/-- The only errors are a character that is no digit and digits beyond the limit. -/
theorem digits_of_readMagnitude_eq_error (failed : readMagnitude limit excess m cs = .error e) :
    e = .invalidDigit ∨ e = excess ∧ ∃ digits rest, cs = digits ++ rest ∧ digits ≠ [] ∧
      (∀ c ∈ digits, c.isDigit = true) ∧ limit < Nat.ofDigitChars 10 digits m := by
  induction cs generalizing m with
  | nil => cases failed
  | cons c rest ih =>
    cases digit : c.isDigit with
    | false =>
      rw [readMagnitude, digit] at failed
      cases failed
      exact .inl rfl
    | true =>
      rw [readMagnitude_cons_digit digit] at failed
      split at failed
      · rename_i beyond
        cases failed
        refine .inr ⟨rfl, [c], rest, rfl, List.cons_ne_nil c [], by simpa using digit, ?_⟩
        rw [Nat.ofDigitChars_cons, Nat.ofDigitChars_nil]
        exact beyond
      · rcases ih failed with other | ⟨same, digits, after, rfl, -, others, beyond⟩
        · exact .inl other
        · refine .inr ⟨same, c :: digits, after, rfl, List.cons_ne_nil c digits, ?_, ?_⟩
          · exact List.forall_mem_cons.2 ⟨digit, others⟩
          · rw [Nat.ofDigitChars_cons]
            exact beyond

end Magnitude

/-! ## Words -/

variable {sign : SignMark} {cs digits : List Char} {e : IntegerError} {m : Int64}

/-- A sign right before a digit is the sign that is read. -/
theorem readWord_text_append (some : digits ≠ []) (isDigits : ∀ c ∈ digits, c.isDigit = true)
    (sign : SignMark) (rest : List Char) :
    readWord (sign.text ++ digits ++ rest) =
      (readMagnitude sign.limit sign.excess 0 (digits ++ rest)).map fun n => Int64.ofInt (sign.apply n) := by
  cases digits with
  | nil => exact absurd rfl some
  | cons d ds =>
    have digit := isDigits d (List.mem_cons_self ..)
    cases sign with
    | plus => rfl
    | minus => rfl
    | bare =>
      have notMinus : d ≠ '-' := by
        intro same
        rw [same] at digit
        cases digit
      have notPlus : d ≠ '+' := by
        intro same
        rw [same] at digit
        cases digit
      simp only [SignMark.text, List.nil_append, List.cons_append]
      rw [readWord]
      · rfl
      all_goals simp [notMinus, notPlus]

/-- A text is read by the sign at its head. -/
theorem readWord_cases (cs : List Char) :
    readWord cs = .error .invalidDigit ∨
      ∃ (sign : SignMark) (rest : List Char), cs = sign.text ++ rest ∧ rest ≠ [] ∧
        readWord cs =
          (readMagnitude sign.limit sign.excess 0 rest).map fun n => Int64.ofInt (sign.apply n) := by
  unfold readWord
  split
  · exact .inl rfl
  · exact .inl rfl
  · exact .inl rfl
  · rename_i rest some
    exact .inr ⟨.minus, rest, rfl, some, rfl⟩
  · rename_i rest some
    exact .inr ⟨.plus, rest, rfl, some, rfl⟩
  · rename_i none _ _ _ _
    exact .inr ⟨.bare, cs, rfl, none, rfl⟩

theorem readWord_of_beyond (some : digits ≠ []) (isDigits : ∀ c ∈ digits, c.isDigit = true)
    (beyond : sign.limit < ofDecimalDigits digits) (rest : List Char) :
    readWord (sign.text ++ digits ++ rest) = .error sign.excess := by
  rw [readWord_text_append some isDigits, readMagnitude_of_beyond isDigits (Nat.zero_le _) beyond]
  rfl

/-- A signed word is read exactly from the texts that denote it. -/
theorem readWord_eq_ok_iff : readWord cs = .ok m ↔ Denotes cs m.toInt := by
  constructor
  · intro read
    rcases readWord_cases cs with failed | ⟨sign, rest, split, some, reads⟩
    · cases failed.symm.trans read
    · obtain ⟨n, magnitude, word⟩ := map_eq_ok_iff.1 (reads.symm.trans read)
      obtain ⟨isDigits, rfl, within⟩ := digits_of_readMagnitude_eq_ok (Nat.zero_le _) magnitude
      refine ⟨sign, rest, split, some, isDigits, ?_⟩
      rw [← word]
      exact toInt_ofInt_of_fitsWord (SignMark.fitsWord_apply_iff.2 within)
  · rintro ⟨sign, digits, rfl, some, isDigits, value⟩
    have fits : FitsWord (sign.apply (ofDecimalDigits digits)) := value ▸ fitsWord_toInt m
    have reads := readWord_text_append some isDigits sign []
    rw [List.append_nil, List.append_nil,
      readMagnitude_of_digits isDigits (SignMark.fitsWord_apply_iff.1 fits)] at reads
    rw [reads, ← Int64.ofInt_toInt m, value]
    rfl

/-- A beginning that denotes an integer out of range decides the error. -/
theorem readWord_of_beginning {start : List Char} {n : Int} (begins : start <+: cs)
    (denotes : Denotes start n) (unfit : ¬FitsWord n) :
    readWord cs = .error (if n < 0 then .tooSmall else .tooLarge) := by
  obtain ⟨rest, rfl⟩ := begins
  obtain ⟨sign, digits, rfl, some, isDigits, rfl⟩ := denotes
  have beyond : sign.limit < ofDecimalDigits digits := by
    rw [SignMark.fitsWord_apply_iff] at unfit
    omega
  rw [readWord_of_beyond some isDigits beyond]
  cases sign with
  | minus =>
    have : (0 : Int) < ofDecimalDigits digits := by
      simp only [SignMark.limit] at beyond
      omega
    rw [if_pos (by simp only [SignMark.apply]; omega)]
    rfl
  | bare =>
    rw [if_neg (by simp only [SignMark.apply]; omega)]
    rfl
  | plus =>
    rw [if_neg (by simp only [SignMark.apply]; omega)]
    rfl

theorem refuses_of_readWord (failed : readWord cs = .error e) : Refuses cs e := by
  have fits : e = .invalidDigit → ∀ start n, start <+: cs → Denotes start n → FitsWord n := by
    rintro rfl start n begins denotes
    by_contra unfit
    have other := (readWord_of_beginning begins denotes unfit).symm.trans failed
    split at other
    · cases other
    · cases other
  have invalid : e = .invalidDigit → Refuses cs e := by
    rintro rfl
    refine .invalidDigit (fits rfl) fun n denotes => ?_
    have word := toInt_ofInt_of_fitsWord (fits rfl cs n (List.prefix_refl cs) denotes)
    cases (readWord_eq_ok_iff.2 (word.symm ▸ denotes)).symm.trans failed
  rcases readWord_cases cs with failed' | ⟨sign, rest, rfl, some, reads⟩
  · cases failed'.symm.trans failed
    exact invalid rfl
  · have stopped := map_eq_error_iff.1 (reads.symm.trans failed)
    rcases digits_of_readMagnitude_eq_error stopped with
      other | ⟨rfl, digits, after, rfl, some, isDigits, beyond⟩
    · exact invalid other
    · have begins : sign.text ++ digits <+: sign.text ++ (digits ++ after) := by
        rw [← List.append_assoc]
        exact List.prefix_append ..
      have denotes : Denotes (sign.text ++ digits) (sign.apply (ofDecimalDigits digits)) :=
        ⟨sign, digits, rfl, some, isDigits, rfl⟩
      change sign.limit < ofDecimalDigits digits at beyond
      cases sign with
      | bare =>
        refine .tooLarge begins denotes ?_
        simp only [SignMark.limit, SignMark.apply] at beyond ⊢
        omega
      | plus =>
        refine .tooLarge begins denotes ?_
        simp only [SignMark.limit, SignMark.apply] at beyond ⊢
        omega
      | minus =>
        refine .tooSmall begins denotes ?_
        simp only [SignMark.limit, SignMark.apply] at beyond ⊢
        omega

/-- The error of a refused text is the reason why it is no signed word. -/
theorem readWord_eq_error_iff : readWord cs = .error e ↔ Refuses cs e := by
  constructor
  · exact refuses_of_readWord
  · intro refuses
    cases refuses with
    | tooLarge begins denotes large =>
      rw [readWord_of_beginning begins denotes fun fits => by have := fits.2; omega, if_neg (by omega)]
    | tooSmall begins denotes small =>
      rw [readWord_of_beginning begins denotes fun fits => by have := fits.1; omega, if_pos (by omega)]
    | invalidDigit fits none =>
      cases read : readWord cs with
      | ok word => exact absurd (readWord_eq_ok_iff.1 read) (none _)
      | error e' =>
        cases refuses_of_readWord read with
        | tooLarge begins denotes large =>
          have := (fits _ _ begins denotes).2
          omega
        | tooSmall begins denotes small =>
          have := (fits _ _ begins denotes).1
          omega
        | invalidDigit => rfl

/-! ## Written words -/

/-- The sign with which an integer is written. -/
def SignMark.ofInt (n : Int) : SignMark :=
  if n < 0 then minus else bare

theorem toList_toString (n : Int) :
    (toString n).toList = (SignMark.ofInt n).text ++ decimalDigits n.natAbs := by
  rw [Int.toString_eq_repr, Int.repr_eq_if, SignMark.ofInt]
  by_cases negative : n < 0
  · rw [if_neg (by omega), if_pos negative, String.toList_append, Nat.toList_repr,
      show (-n).toNat = n.natAbs by omega]
    rfl
  · rw [if_pos (by omega), if_neg negative, Nat.toList_repr, show n.toNat = n.natAbs by omega]
    rfl

theorem denotes_toString (n : Int) : Denotes (toString n).toList n := by
  refine ⟨SignMark.ofInt n, decimalDigits n.natAbs, toList_toString n, Nat.toDigits_ne_nil, ?_, ?_⟩
  · intro c member
    exact Json.isDigit_of_mem_decimalDigits member
  · rw [ofDecimalDigits_decimalDigits, SignMark.ofInt]
    by_cases negative : n < 0
    · rw [if_pos negative, SignMark.apply]
      omega
    · rw [if_neg negative]
      show n = (n.natAbs : Int)
      omega

theorem mem_of_denotes {n : Int} (denotes : Denotes cs n) {c : Char} (member : c ∈ cs) :
    c = '+' ∨ c = '-' ∨ c.isDigit = true := by
  obtain ⟨sign, digits, rfl, -, isDigits, -⟩ := denotes
  rcases List.mem_append.1 member with mark | digit
  · cases sign with
    | bare => cases mark
    | plus => exact .inl (List.mem_singleton.1 mark)
    | minus => exact .inr (.inl (List.mem_singleton.1 mark))
  · exact .inr (.inr (isDigits c digit))

end IntervalStats
