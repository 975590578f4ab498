import Mathlib.Data.List.Basic
import IntervalStats.Json.Token

/-!
# Tokens read back

A written token is read back from the head of a text, whatever follows it (`Token.read?_write`). A
string may hold any characters: each is written as one item between the quotes, and this item denotes
the character again. Only a numeral looks ahead, as it goes on as long as it can, so the text after it
must not begin with a character that could belong to it.
-/

namespace IntervalStats

/-- A numeral without superfluous zeros, without a point and without a power of ten. -/
inductive Numeral.Canonical : Numeral → Prop where
  | intro (negative : Bool) (magnitude : Nat) :
      Canonical ⟨negative, decimalDigits magnitude, none, none⟩

theorem Numeral.canonical_ofInt (n : Int) : (ofInt n).Canonical :=
  .intro _ _

namespace Json

/-! ## Numerals -/

/-- A character that a numeral may go on with. -/
def extendsNumeral (c : Char) : Bool :=
  c.isDigit || c = '.' || c = 'e' || c = 'E'

/-- A numeral right before this text ends there. -/
def EndsNumeral (cs : List Char) : Prop :=
  ∀ c ∈ cs.head?, extendsNumeral c = false

theorem endsNumeral_nil : EndsNumeral [] := by
  simp [EndsNumeral]

theorem endsNumeral_cons {c : Char} (cs : List Char) (other : extendsNumeral c = false) :
    EndsNumeral (c :: cs) := by
  simpa [EndsNumeral] using other

theorem isDigit_of_mem_decimalDigits {n : Nat} {c : Char} (member : c ∈ decimalDigits n) :
    c.isDigit = true :=
  Nat.isDigit_of_mem_toDigits (by decide) (by decide) member

theorem exists_decimalDigits_eq_cons (n : Nat) :
    ∃ d ds, decimalDigits n = d :: ds ∧ d.isDigit = true := by
  cases digits : decimalDigits n with
  | nil => exact absurd digits Nat.toDigits_ne_nil
  | cons d ds => exact ⟨d, ds, rfl, isDigit_of_mem_decimalDigits (digits ▸ List.mem_cons_self ..)⟩

/-- Only zero is written with a zero in front. -/
theorem head?_decimalDigits {n : Nat} (positive : 0 < n) : (decimalDigits n).head? ≠ some '0' := by
  induction n using Nat.strongRecOn with
  | ind n ih =>
    unfold decimalDigits at ih ⊢
    by_cases small : n < 10
    · rw [Nat.toDigits_of_lt_base small, List.head?_singleton, ne_eq, Option.some.injEq,
        Nat.digitChar_eq_zero]
      omega
    · rw [Nat.toDigits_of_base_le (by decide) (by omega),
        List.head?_append_of_ne_nil _ Nat.toDigits_ne_nil]
      exact ih (n / 10) (by omega) (by omega)

theorem readDigits?_append {ds rest : List Char} (digits : ∀ c ∈ ds, c.isDigit = true)
    (nonempty : ds ≠ []) (ends : EndsNumeral rest) : readDigits? (ds ++ rest) = some (ds, rest) := by
  have stops : rest.takeWhile Char.isDigit = [] ∧ rest.dropWhile Char.isDigit = rest := by
    cases rest with
    | nil => exact ⟨rfl, rfl⟩
    | cons c rest =>
      have other := ends c rfl
      simp only [extendsNumeral, Bool.or_eq_false_iff] at other
      simp [other]
  have taken : (ds ++ rest).takeWhile Char.isDigit = ds := by
    rw [List.takeWhile_append_of_pos digits, stops.1, List.append_nil]
  have left : (ds ++ rest).dropWhile Char.isDigit = rest := by
    rw [List.dropWhile_append_of_pos digits, stops.2]
  rw [readDigits?, spanDigits, taken, left, if_neg (by simpa using nonempty)]

theorem readWhole?_append (n : Nat) {rest : List Char} (ends : EndsNumeral rest) :
    readWhole? (decimalDigits n ++ rest) = some (decimalDigits n, rest) := by
  by_cases zero : n = 0
  · subst zero
    rfl
  have head := head?_decimalDigits (Nat.pos_of_ne_zero zero)
  have read := readDigits?_append (fun _ => isDigit_of_mem_decimalDigits (n := n)) Nat.toDigits_ne_nil ends
  obtain ⟨d, ds, digits, -⟩ := exists_decimalDigits_eq_cons n
  rw [digits] at read head ⊢
  rw [← read, List.cons_append, readWhole?]
  rintro rest' same
  simp_all

theorem readFraction?_of_ends {rest : List Char} (ends : EndsNumeral rest) :
    readFraction? rest = some (none, rest) := by
  unfold readFraction?
  split
  · exact absurd (ends '.' rfl) (by decide)
  · rfl

theorem readExponent?_of_ends {rest : List Char} (ends : EndsNumeral rest) :
    readExponent? rest = some (none, rest) := by
  unfold readExponent?
  split
  · exact absurd (ends 'e' rfl) (by decide)
  · exact absurd (ends 'E' rfl) (by decide)
  · rfl

theorem readMagnitude?_append (negative : Bool) (n : Nat) {rest : List Char} (ends : EndsNumeral rest) :
    readMagnitude? negative (decimalDigits n ++ rest) =
      some (⟨negative, decimalDigits n, none, none⟩, rest) := by
  simp only [readMagnitude?, readWhole?_append n ends, readFraction?_of_ends ends,
    readExponent?_of_ends ends, Option.bind_eq_bind, Option.bind_some, Option.pure_def]

theorem text_negative (n : Nat) :
    Numeral.text ⟨true, decimalDigits n, none, none⟩ = '-' :: decimalDigits n := by
  simp [Numeral.text, Numeral.exponentText]

theorem text_nonnegative (n : Nat) :
    Numeral.text ⟨false, decimalDigits n, none, none⟩ = decimalDigits n := by
  simp [Numeral.text, Numeral.exponentText]

/-- The text of a numeral begins with a sign or a digit. -/
theorem exists_text_eq_cons {n : Numeral} (canonical : n.Canonical) :
    ∃ c cs, n.text = c :: cs ∧ (c = '-' ∨ c.isDigit = true) := by
  obtain ⟨negative, magnitude⟩ := canonical
  cases negative with
  | true => exact ⟨'-', _, text_negative magnitude, .inl rfl⟩
  | false =>
    obtain ⟨d, ds, digits, digit⟩ := exists_decimalDigits_eq_cons magnitude
    exact ⟨d, ds, (text_nonnegative magnitude).trans digits, .inr digit⟩

theorem readNumeral?_append {n : Numeral} (canonical : n.Canonical) {rest : List Char}
    (ends : EndsNumeral rest) : readNumeral? (n.text ++ rest) = some (n, rest) := by
  obtain ⟨negative, magnitude⟩ := canonical
  have read := readMagnitude?_append negative magnitude ends
  cases negative with
  | true =>
    rw [text_negative, List.cons_append, readNumeral?]
    exact read
  | false =>
    obtain ⟨d, ds, digits, digit⟩ := exists_decimalDigits_eq_cons magnitude
    rw [text_nonnegative, ← read, digits, List.cons_append, readNumeral?]
    rintro rest' same
    rw [(List.cons.inj same).1] at digit
    cases digit

/-! ## Strings -/

/-- One more piece in front of what was read. -/
def addPiece (piece : Piece) (read : List Piece × List Char) : List Piece × List Char :=
  (piece :: read.1, read.2)

theorem readPieces?_plain {c : Char} (notQuote : c ≠ '"') (notBackslash : c ≠ '\\')
    (visible : ¬c.toNat < 0x20) (rest : List Char) :
    readPieces? (c :: rest) = (readPieces? rest).map (addPiece (.char c)) := by
  rw [readPieces?.eq_5 _ _ notQuote (by simp [notBackslash]) (by simp [notBackslash]),
    if_neg (by simp [notBackslash, visible])]
  cases readPieces? rest <;> rfl

theorem readPieces?_short {c d : Char} (escape : shortEscape? d = some c) (rest : List Char) :
    readPieces? ('\\' :: d :: rest) = (readPieces? rest).map (addPiece (.char c)) := by
  have other : d ≠ 'u' := by
    rintro rfl
    cases escape
  rw [readPieces?.eq_4 _ _ (by simp [other]), escape]
  cases readPieces? rest <;> rfl

theorem readPieces?_unit {a b c d : Char} {n : Nat} (value : hexUnit? a b c d = some n)
    (rest : List Char) :
    readPieces? ('\\' :: 'u' :: a :: b :: c :: d :: rest) =
      (readPieces? rest).map (addPiece (.unit n)) := by
  rw [readPieces?.eq_3, value]
  cases readPieces? rest <;> rfl

theorem hexUnit?_of_lt {n : Nat} (small : n < 0x20) :
    hexUnit? '0' '0' (Nat.digitChar (n / 16)) (Nat.digitChar (n % 16)) = some n := by
  revert n
  decide

theorem joinPieces?_unit {n : Nat} (single : n < 0xD800) (pieces : List Piece) :
    joinPieces? (.unit n :: pieces) = (joinPieces? pieces).map (Char.ofNat n :: ·) := by
  have notHigh : isHighSurrogate n = false := by
    simp [isHighSurrogate]
    omega
  have notLow : isLowSurrogate n = false := by
    simp [isLowSurrogate]
    omega
  rcases pieces with _ | ⟨_ | _, pieces⟩ <;> simp [joinPieces?, notHigh, notLow]

/-- A written character is read as one piece, and this piece denotes it. -/
theorem exists_piece (c : Char) :
    ∃ piece,
      (∀ rest, readPieces? (writeChar c ++ rest) = (readPieces? rest).map (addPiece piece)) ∧
      ∀ pieces, joinPieces? (piece :: pieces) = (joinPieces? pieces).map (c :: ·) := by
  unfold writeChar
  split
  case h_8 notQuote notBackslash _ _ _ _ _ =>
    split
    next control =>
      refine ⟨.unit c.toNat, readPieces?_unit (hexUnit?_of_lt control), fun pieces => ?_⟩
      rw [joinPieces?_unit (by omega), Char.ofNat_toNat]
    next visible => exact ⟨.char c, readPieces?_plain notQuote notBackslash visible, fun _ => rfl⟩
  -- The characters with a short escape.
  all_goals exact ⟨.char _, readPieces?_short rfl, fun _ => rfl⟩

theorem exists_pieces (s rest : List Char) :
    ∃ pieces, readPieces? (s.flatMap writeChar ++ '"' :: rest) = some (pieces, rest) ∧
      joinPieces? pieces = some s := by
  induction s with
  | nil => exact ⟨[], rfl, rfl⟩
  | cons c s ih =>
    obtain ⟨piece, reads, denotes⟩ := exists_piece c
    obtain ⟨pieces, read, joined⟩ := ih
    refine ⟨piece :: pieces, ?_, ?_⟩
    · rw [List.flatMap_cons, List.append_assoc, reads, read]
      rfl
    · rw [denotes, joined]
      rfl

/-! ## Tokens -/

namespace Token

/-- A number is in the form in which integers are written. -/
def Canonical : Token → Prop
  | number n => n.Canonical
  | _ => True

/-- The token, right before this text, ends there. -/
def EndsBefore : Token → List Char → Prop
  | number _, rest => EndsNumeral rest
  | _, _ => True

theorem read?_numeral {c : Char} {cs : List Char} (starts : c = '-' ∨ c.isDigit = true) :
    read? (c :: cs) = (readNumeral? (c :: cs)).map fun (n, rest) => (number n, rest) := by
  unfold read?
  split <;> simp_all

/-- A written token is read back, and what follows it is left. -/
theorem read?_write {t : Token} (canonical : t.Canonical) {rest : List Char}
    (ends : t.EndsBefore rest) : read? (t.write ++ rest) = some (t, rest) := by
  cases t with
  | number n =>
    obtain ⟨c, cs, text, starts⟩ := exists_text_eq_cons canonical
    have read := readNumeral?_append canonical ends
    rw [text] at read
    rw [write, text, List.cons_append, read?_numeral starts, ← List.cons_append, read]
    rfl
  | text value =>
    cases value with
    | none => rfl
    | some s =>
      obtain ⟨pieces, read, joined⟩ := exists_pieces s.toList rest
      simp [write, writeText, read?, read, joined]
  | bool b => cases b <;> rfl
  | _ => rfl

end Token

end Json

end IntervalStats
