import IntervalStats.Text.Blank
import IntervalStats.Text.DecimalDigit

/-!
# Configuration text

A simulator writes its configuration in nested groups: `key = value;` on a line of its own, and
`key : ` before a group in braces that ends with `};`. `GroupText.toJson` turns such a text into JSON
by five passes over its characters. Each pass goes once from left to right and knows nothing of the
others, so the result of a text in another layout is whatever the passes make of it.
-/

namespace IntervalStats.GroupText

/-- Every ` = ` becomes ` : `. -/
def assignments : List Char → List Char
  | ' ' :: '=' :: ' ' :: rest => ' ' :: ':' :: ' ' :: assignments rest
  | c :: rest => c :: assignments rest
  | [] => []

/-- Every semicolon at the end of a line becomes a comma. -/
def terminators : List Char → List Char
  | ';' :: '\n' :: rest => ',' :: '\n' :: terminators rest
  | c :: rest => c :: terminators rest
  | [] => []

/-- The characters up to a closing brace with only blanks before it, and those after the brace. -/
def blanksToBrace? (cs : List Char) : Option (List Char × List Char) :=
  match cs.dropWhile Text.isBlank with
  | '\x7d' :: rest => some (cs.takeWhile Text.isBlank, rest)
  | _ => none

theorem length_blanksToBrace?_lt {cs blanks rest : List Char}
    (h : blanksToBrace? cs = some (blanks, rest)) : rest.length < cs.length := by
  unfold blanksToBrace? at h
  split at h
  · rename_i after found
    have shorter := (List.dropWhile_sublist (p := Text.isBlank) (l := cs)).length_le
    rw [found, List.length_cons] at shorter
    simp only [Option.some.injEq, Prod.mk.injEq] at h
    rw [← h.2]
    omega
  · simp at h

/-- A comma at the end of a line goes if only blanks stand between the line and a closing brace. -/
def trailingCommas : List Char → List Char
  | [] => []
  | ',' :: '\n' :: rest =>
    match _found : blanksToBrace? rest with
    | some (blanks, after) => '\n' :: blanks ++ '\x7d' :: trailingCommas after
    | none => ',' :: trailingCommas ('\n' :: rest)
  | c :: rest => c :: trailingCommas rest
termination_by cs => cs.length
decreasing_by
  · have := length_blanksToBrace?_lt _found
    simp
    omega
  · simp
  · simp

/-- A word is the longest run of characters that are not blank. -/
def isWordChar (c : Char) : Bool := !Text.isBlank c

/-- Every word right before ` : ` is put in quotes. -/
def quoteKeys : List Char → List Char
  | [] => []
  | c :: rest =>
    if isWordChar c then
      let word := c :: rest.takeWhile isWordChar
      match _after : rest.dropWhile isWordChar with
      | ' ' :: ':' :: ' ' :: after => '"' :: word ++ '"' :: ' ' :: ':' :: ' ' :: quoteKeys after
      | after => word ++ quoteKeys after
    else c :: quoteKeys rest
termination_by cs => cs.length
decreasing_by
  all_goals
    have shorter := (List.dropWhile_sublist (p := isWordChar) (l := rest)).length_le
    simp_all
    try omega

/-- The suffix `L` of every number goes. -/
def longSuffixes : List Char → List Char
  | [] => []
  | c :: rest =>
    if Text.isScriptDigit c then
      let digits := c :: rest.takeWhile Text.isScriptDigit
      match _after : rest.dropWhile Text.isScriptDigit with
      | 'L' :: after => digits ++ longSuffixes after
      | after => digits ++ longSuffixes after
    else c :: longSuffixes rest
termination_by cs => cs.length
decreasing_by
  all_goals
    have shorter := (List.dropWhile_sublist (p := Text.isScriptDigit) (l := rest)).length_le
    simp_all
    try omega

/-- Configuration text as JSON text. -/
def toJson (cs : List Char) : List Char :=
  longSuffixes (quoteKeys (trailingCommas (terminators (assignments
    ('\x7b' :: '\n' :: cs ++ ['\x7d'])))))

end IntervalStats.GroupText
