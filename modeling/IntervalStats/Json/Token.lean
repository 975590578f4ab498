import IntervalStats.Decimal.Numeral

/-!
# JSON tokens

The marks, words, strings and numerals of JSON text. `Token.read?` reads the token at the head of a
text and leaves the rest, which is shorter (`Token.length_read?_lt`).

A string may name UTF-16 units by number. Units that do not pair up denote no text, so the text of a
string token is optional: the token is well formed, and whether its text is needed is for the reader
of the value to say.
-/

namespace IntervalStats.Json

inductive Token where
  | openBrace
  | closeBrace
  | openBracket
  | closeBracket
  | colon
  | comma
  | null
  | bool (value : Bool)
  | text (value : Option String)
  | number (value : Numeral)
  deriving DecidableEq, Repr

/-! ## Strings -/

/-- One item between the quotes of a string: a character, or a UTF-16 unit given by number. -/
inductive Piece where
  | char (c : Char)
  | unit (n : Nat)
  deriving DecidableEq, Repr

/-- The value of a hexadecimal digit. -/
def hexDigit? (c : Char) : Option Nat :=
  if c.isDigit then some (c.toNat - '0'.toNat)
  else if 'a' ≤ c ∧ c ≤ 'f' then some (c.toNat - 'a'.toNat + 10)
  else if 'A' ≤ c ∧ c ≤ 'F' then some (c.toNat - 'A'.toNat + 10)
  else none

/-- The value of four hexadecimal digits. -/
def hexUnit? (a b c d : Char) : Option Nat := do
  let a ← hexDigit? a
  let b ← hexDigit? b
  let c ← hexDigit? c
  let d ← hexDigit? d
  return ((a * 16 + b) * 16 + c) * 16 + d

/-- The character after a backslash, for the escapes of one character. -/
def shortEscape? (c : Char) : Option Char :=
  match c with
  | '"' => some '"'
  | '\\' => some '\\'
  | '/' => some '/'
  | 'b' => some '\x08'
  | 'f' => some '\x0c'
  | 'n' => some '\n'
  | 'r' => some '\r'
  | 't' => some '\t'
  | _ => none

/-- Reads the pieces up to the closing quote. Control characters must be escaped. -/
def readPieces? : List Char → Option (List Piece × List Char)
  | [] => none
  | '"' :: rest => some ([], rest)
  | '\\' :: 'u' :: a :: b :: c :: d :: rest =>
    match hexUnit? a b c d, readPieces? rest with
    | some n, some (pieces, rest) => some (.unit n :: pieces, rest)
    | _, _ => none
  | '\\' :: c :: rest =>
    match shortEscape? c, readPieces? rest with
    | some c, some (pieces, rest) => some (.char c :: pieces, rest)
    | _, _ => none
  | c :: rest =>
    if c = '\\' ∨ c.toNat < 0x20 then none
    else match readPieces? rest with
      | some (pieces, rest) => some (.char c :: pieces, rest)
      | none => none

def isHighSurrogate (n : Nat) : Bool := 0xD800 ≤ n && n < 0xDC00

def isLowSurrogate (n : Nat) : Bool := 0xDC00 ≤ n && n < 0xE000

/-- The characters that pieces denote, if every surrogate unit has its partner right beside it. -/
def joinPieces? : List Piece → Option (List Char)
  | [] => some []
  | .char c :: rest => (joinPieces? rest).map (c :: ·)
  | .unit high :: .unit low :: rest =>
    if isHighSurrogate high then
      if isLowSurrogate low then
        (joinPieces? rest).map
          (Char.ofNat (0x10000 + (high - 0xD800) * 0x400 + (low - 0xDC00)) :: ·)
      else none
    else if isLowSurrogate high then none
    else (joinPieces? (.unit low :: rest)).map (Char.ofNat high :: ·)
  | .unit n :: rest =>
    if isHighSurrogate n || isLowSurrogate n then none
    else (joinPieces? rest).map (Char.ofNat n :: ·)

theorem length_readPieces?_lt {cs rest : List Char} {pieces : List Piece}
    (h : readPieces? cs = some (pieces, rest)) : rest.length < cs.length := by
  fun_induction readPieces? cs generalizing pieces rest with
  | case1 => simp at h
  | case2 => simp at h; simp [← h.2]
  | case3 a b c d r n pieces' r' hr _ ih =>
    have shorter := ih hr
    obtain rfl : r' = rest := congrArg Prod.snd (Option.some.inj h)
    simp only [List.length_cons]
    omega
  | case4 => simp at h
  | case5 => grind
  | case6 => simp at h
  | case7 => simp at h
  | case8 => grind
  | case9 => simp at h

/-! ## Numerals -/

/-- The digits at the head of a text, and what follows them. -/
def spanDigits (cs : List Char) : List Char × List Char :=
  (cs.takeWhile Char.isDigit, cs.dropWhile Char.isDigit)

/-- Reads at least one digit. -/
def readDigits? (cs : List Char) : Option (List Char × List Char) :=
  if (spanDigits cs).1.isEmpty then none else some (spanDigits cs)

/-- Reads the digits before the point: a zero stands alone. -/
def readWhole? : List Char → Option (List Char × List Char)
  | '0' :: rest => some (['0'], rest)
  | cs => readDigits? cs

/-- Reads a point and the digits after it, if there is a point. -/
def readFraction? : List Char → Option (Option (List Char) × List Char)
  | '.' :: rest => (readDigits? rest).map fun (ds, rest) => (some ds, rest)
  | cs => some (none, cs)

/-- Reads the sign and the digits of a power of ten. -/
def readPower? : List Char → Option ((ExponentSign × List Char) × List Char)
  | '+' :: rest => (readDigits? rest).map fun (ds, rest) => ((.plus, ds), rest)
  | '-' :: rest => (readDigits? rest).map fun (ds, rest) => ((.minus, ds), rest)
  | cs => (readDigits? cs).map fun (ds, rest) => ((.bare, ds), rest)

/-- Reads a power of ten, if its mark is there. -/
def readExponent? : List Char → Option (Option (ExponentSign × List Char) × List Char)
  | 'e' :: rest => (readPower? rest).map fun (e, rest) => (some e, rest)
  | 'E' :: rest => (readPower? rest).map fun (e, rest) => (some e, rest)
  | cs => some (none, cs)

/-- Reads a numeral without its sign. -/
def readMagnitude? (negative : Bool) (cs : List Char) : Option (Numeral × List Char) := do
  let (whole, cs) ← readWhole? cs
  let (fraction, cs) ← readFraction? cs
  let (exponent, cs) ← readExponent? cs
  return (⟨negative, whole, fraction, exponent⟩, cs)

/-- Reads a numeral. -/
def readNumeral? : List Char → Option (Numeral × List Char)
  | '-' :: rest => readMagnitude? true rest
  | cs => readMagnitude? false cs

theorem length_readDigits?_lt {cs ds rest : List Char} (h : readDigits? cs = some (ds, rest)) :
    rest.length < cs.length := by
  unfold readDigits? spanDigits at h
  split at h
  · simp at h
  · rename_i nonempty
    simp only [Option.some.injEq, Prod.mk.injEq] at h
    have whole := congrArg List.length (List.takeWhile_append_dropWhile (p := Char.isDigit) (l := cs))
    rw [List.length_append, h.1, h.2] at whole
    rw [h.1] at nonempty
    cases ds with
    | nil => simp at nonempty
    | cons d ds => simp at whole; omega

theorem length_readWhole?_lt {cs ds rest : List Char} (h : readWhole? cs = some (ds, rest)) :
    rest.length < cs.length := by
  unfold readWhole? at h
  split at h
  · simp at h; simp [h.2]
  · exact length_readDigits?_lt h

theorem length_readFraction?_le {cs rest : List Char} {f : Option (List Char)}
    (h : readFraction? cs = some (f, rest)) : rest.length ≤ cs.length := by
  unfold readFraction? at h
  split at h
  · obtain ⟨⟨ds, r⟩, hd, he⟩ := Option.map_eq_some_iff.1 h
    have := length_readDigits?_lt hd
    simp_all
    omega
  · simp_all

theorem length_readPower?_lt {cs rest : List Char} {e : ExponentSign × List Char}
    (h : readPower? cs = some (e, rest)) : rest.length < cs.length := by
  unfold readPower? at h
  split at h
  all_goals
    obtain ⟨⟨ds, r⟩, hd, he⟩ := Option.map_eq_some_iff.1 h
    have := length_readDigits?_lt hd
    simp_all
    try omega

theorem length_readExponent?_le {cs rest : List Char} {e : Option (ExponentSign × List Char)}
    (h : readExponent? cs = some (e, rest)) : rest.length ≤ cs.length := by
  unfold readExponent? at h
  split at h
  · obtain ⟨⟨p, r⟩, hp, he⟩ := Option.map_eq_some_iff.1 h
    have := length_readPower?_lt hp
    simp_all
    omega
  · obtain ⟨⟨p, r⟩, hp, he⟩ := Option.map_eq_some_iff.1 h
    have := length_readPower?_lt hp
    simp_all
    omega
  · simp_all

theorem length_readMagnitude?_lt {negative : Bool} {cs rest : List Char} {n : Numeral}
    (h : readMagnitude? negative cs = some (n, rest)) : rest.length < cs.length := by
  simp only [readMagnitude?, Option.bind_eq_bind, Option.bind_eq_some_iff, Prod.exists] at h
  obtain ⟨whole, cs₁, h₁, fraction, cs₂, h₂, exponent, cs₃, h₃, h⟩ := h
  have := length_readWhole?_lt h₁
  have := length_readFraction?_le h₂
  have := length_readExponent?_le h₃
  obtain rfl : cs₃ = rest := congrArg Prod.snd (Option.some.inj h)
  omega

theorem length_readNumeral?_lt {cs rest : List Char} {n : Numeral}
    (h : readNumeral? cs = some (n, rest)) : rest.length < cs.length := by
  unfold readNumeral? at h
  split at h
  · have := length_readMagnitude?_lt h
    simp
    omega
  · exact length_readMagnitude?_lt h

/-! ## Tokens -/

/-- Reads the token at the head of a text. -/
def Token.read? : List Char → Option (Token × List Char)
  | '\x7b' :: rest => some (openBrace, rest)
  | '\x7d' :: rest => some (closeBrace, rest)
  | '[' :: rest => some (openBracket, rest)
  | ']' :: rest => some (closeBracket, rest)
  | ':' :: rest => some (colon, rest)
  | ',' :: rest => some (comma, rest)
  | 'n' :: 'u' :: 'l' :: 'l' :: rest => some (null, rest)
  | 't' :: 'r' :: 'u' :: 'e' :: rest => some (bool true, rest)
  | 'f' :: 'a' :: 'l' :: 's' :: 'e' :: rest => some (bool false, rest)
  | '"' :: rest =>
    (readPieces? rest).map fun (pieces, rest) => (text ((joinPieces? pieces).map String.ofList), rest)
  | cs => (readNumeral? cs).map fun (n, rest) => (number n, rest)

theorem Token.length_read?_lt {cs rest : List Char} {t : Token} (h : read? cs = some (t, rest)) :
    rest.length < cs.length := by
  unfold read? at h
  split at h
  case h_10 =>
    obtain ⟨⟨pieces, r⟩, hp, he⟩ := Option.map_eq_some_iff.1 h
    have := length_readPieces?_lt hp
    simp_all
    omega
  case h_11 =>
    obtain ⟨⟨n, r⟩, hn, he⟩ := Option.map_eq_some_iff.1 h
    have := length_readNumeral?_lt hn
    simp_all
  all_goals
    simp only [Option.some.injEq, Prod.mk.injEq] at h
    simp [← h.2]
    try omega

/-! ## Writing -/

/-- A UTF-16 unit by number, for a control character. -/
def controlEscape (c : Char) : List Char :=
  ['\\', 'u', '0', '0', Nat.digitChar (c.toNat / 16), Nat.digitChar (c.toNat % 16)]

/-- A character between the quotes of a string. Only the quote, the backslash and the control
characters are escaped. -/
def writeChar (c : Char) : List Char :=
  match c with
  | '"' => ['\\', '"']
  | '\\' => ['\\', '\\']
  | '\x08' => ['\\', 'b']
  | '\x0c' => ['\\', 'f']
  | '\n' => ['\\', 'n']
  | '\r' => ['\\', 'r']
  | '\t' => ['\\', 't']
  | c => if c.toNat < 0x20 then controlEscape c else [c]

/-- A string in quotes; a lone surrogate stands for a string that denotes no text. -/
def writeText : Option String → List Char
  | some s => '"' :: s.toList.flatMap writeChar ++ ['"']
  | none => ['"', '\\', 'u', 'd', '8', '0', '0', '"']

/-- The characters of a token. -/
def Token.write : Token → List Char
  | openBrace => ['\x7b']
  | closeBrace => ['\x7d']
  | openBracket => ['[']
  | closeBracket => [']']
  | colon => [':']
  | comma => [',']
  | null => ['n', 'u', 'l', 'l']
  | bool true => ['t', 'r', 'u', 'e']
  | bool false => ['f', 'a', 'l', 's', 'e']
  | text value => writeText value
  | number value => value.text

end IntervalStats.Json
