import IntervalStats.Text.Hidden

/-!
# Quoted text

A text between double quotes as messages and log lines show it: the quote and the backslash are
escaped, a hidden character is written by name or by number, and everything else stands for itself.
-/

namespace IntervalStats.Text

/-- A number in lowercase hexadecimal. -/
def hexadecimal (n : Nat) : List Char :=
  Nat.toDigits 16 n

/-- One character between the quotes. -/
def quotedChar (c : Char) : List Char :=
  if c = '"' then ['\\', '"']
  else if c = '\\' then ['\\', '\\']
  else if c = '\n' then ['\\', 'n']
  else if c = '\r' then ['\\', 'r']
  else if c = '\t' then ['\\', 't']
  else if c.toNat = 0 then ['\\', '0']
  else if isHidden c then
    ['\\', 'u', '\x7b'] ++ hexadecimal c.toNat ++ ['\x7d']
  else [c]

/-- A text between double quotes. -/
def quoted (s : String) : String :=
  String.ofList ('"' :: s.toList.flatMap quotedChar ++ ['"'])

/- A combining accent after a letter and a space that does not break are written by number, a letter with an
accent of its own and a word in another script are not. -/
example : ["e\u0301", "l1\u00A0d", "é", "Кэш"].map quoted =
    ["\"e\\u\x7b301\x7d\"", "\"l1\\u\x7ba0\x7dd\"", "\"é\"", "\"Кэш\""] := by
  decide +kernel

end IntervalStats.Text
