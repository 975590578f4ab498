import IntervalStats.Proofs.GroupLayout

/-!
# Passes over configuration text

Each pass of the translation to JSON looks for one kind of match, from left to right, and keeps every
other character (`Skips`). So a pass keeps a text in which no match begins (`Skips.append`), whatever the
match would be; `Apart` says that none begins, also with what follows the text. Keys and numbers are
taken as whole words, yet a pass that starts inside a word does the same (`skips_quoteKeys`,
`skips_longSuffixes`).
-/

namespace IntervalStats.GroupText

/-- A pass keeps every character where none of its matches begins. -/
def Skips (pass : List Char → List Char) (Matches : List Char → Prop) : Prop :=
  ∀ c rest, ¬Matches (c :: rest) → pass (c :: rest) = c :: pass rest

/-- No match begins in the text `s` where `rest` follows it. -/
def Apart (Matches : List Char → Prop) (s rest : List Char) : Prop :=
  ∀ front back, s = front ++ back → back ≠ [] → ¬Matches (back ++ rest)

section Passes

variable {pass : List Char → List Char} {Matches : List Char → Prop} {s s' rest : List Char}

theorem Apart.nil : Apart Matches [] rest := by
  intro front back split nonempty
  exact absurd (List.append_eq_nil_iff.1 split.symm).2 nonempty

theorem apart_cons {c : Char} :
    Apart Matches (c :: s) rest ↔ ¬Matches (c :: s ++ rest) ∧ Apart Matches s rest := by
  constructor
  · intro apart
    refine ⟨apart [] (c :: s) rfl (List.cons_ne_nil _ _), fun front back split => ?_⟩
    exact apart (c :: front) back (by rw [split, List.cons_append])
  · rintro ⟨first, others⟩ front back split nonempty
    cases front with
    | nil =>
      rw [← show c :: s = back from split]
      exact first
    | cons d front =>
      cases split
      exact others front back rfl nonempty

theorem Skips.append (skips : Skips pass Matches) (apart : Apart Matches s rest) :
    pass (s ++ rest) = s ++ pass rest := by
  induction s with
  | nil => rfl
  | cons c s ih =>
    obtain ⟨first, others⟩ := apart_cons.1 apart
    rw [List.cons_append, skips c (s ++ rest) first, ih others, List.cons_append]

theorem Apart.append (left : Apart Matches s (s' ++ rest)) (right : Apart Matches s' rest) :
    Apart Matches (s ++ s') rest := by
  induction s with
  | nil => exact right
  | cons c s ih =>
    obtain ⟨first, others⟩ := apart_cons.1 left
    refine apart_cons.2 ⟨?_, ih others⟩
    rwa [← List.append_assoc] at first

/-- A match that must begin with one of some characters begins nowhere in a text without them. -/
theorem apart_of_forall (none : ∀ c ∈ s, ∀ cs, ¬Matches (c :: cs)) : Apart Matches s rest := by
  induction s with
  | nil => exact .nil
  | cons c s ih =>
    obtain ⟨first, others⟩ := List.forall_mem_cons.1 none
    exact apart_cons.2 ⟨first _, ih others⟩

/-- A match whose second character is not in the text and not right after it begins nowhere in it. -/
theorem apart_of_second {b : Char} (second : ∀ cs, Matches cs → ∃ a rest, cs = a :: b :: rest)
    (absent : b ∉ s) (next : rest.head? ≠ some b) : Apart Matches s rest := by
  induction s with
  | nil => exact .nil
  | cons c s ih =>
    rw [List.mem_cons, not_or] at absent
    refine apart_cons.2 ⟨fun found => ?_, ih absent.2⟩
    obtain ⟨a, others, split⟩ := second _ found
    cases s with
    | nil =>
      rw [List.cons_append, List.nil_append, List.cons.injEq] at split
      rw [split.2] at next
      exact next rfl
    | cons d s =>
      simp only [List.cons_append, List.cons.injEq] at split
      exact absent.2 (split.2.1 ▸ List.mem_cons_self ..)

/-- A text is not interrupted by a character that it does not have. -/
theorem prefix_of_prefix_append_cons {pattern u v : List Char} {c : Char} (absent : c ∉ pattern)
    (found : pattern <+: u ++ c :: v) : pattern <+: u := by
  rcases Nat.lt_or_ge u.length pattern.length with long | short
  · have whole : u ++ [c] <+: u ++ c :: v := ⟨v, by simp⟩
    have inside : u ++ [c] <+: pattern :=
      List.prefix_of_prefix_length_le whole found (by rw [List.length_append]; exact long)
    exact absurd (inside.subset (by simp)) absent
  · exact List.prefix_of_prefix_length_le found (List.prefix_append _ _) short

/-- A pattern that is not in a text is not in it either where a foreign character follows. -/
theorem apart_of_not_infix {pattern : List Char} {c : Char} (absent : c ∉ pattern)
    (free : ¬pattern <:+: s) : Apart (pattern <+: ·) s (c :: rest) := by
  intro front back split _ found
  apply free
  rw [split]
  exact (prefix_of_prefix_append_cons absent found).isInfix.trans (List.suffix_append _ _).isInfix

end Passes

/-! ## What each pass looks for -/

theorem skips_assignments : Skips assignments ([' ', '=', ' '] <+: ·) := by
  intro c rest apart
  rw [assignments.eq_def]
  split
  next found =>
    rw [found] at apart
    exact absurd (List.prefix_append _ _) apart
  next same => cases same; rfl
  next same => cases same

theorem skips_terminators : Skips terminators ([';', '\n'] <+: ·) := by
  intro c rest apart
  rw [terminators.eq_def]
  split
  next found =>
    rw [found] at apart
    exact absurd (List.prefix_append _ _) apart
  next same => cases same; rfl
  next same => cases same

/-- A comma at the end of a line before a closing brace. -/
def StartsTrailing (cs : List Char) : Prop :=
  ∃ rest blanks after, cs = ',' :: '\n' :: rest ∧ blanksToBrace? rest = some (blanks, after)

theorem skips_trailingCommas : Skips trailingCommas StartsTrailing := by
  intro c rest apart
  rw [trailingCommas.eq_def]
  split
  next same => cases same
  next found =>
    split
    next blanks after braced => exact absurd ⟨_, blanks, after, found, braced⟩ apart
    next => cases found; rfl
  next same => cases same; rfl

/-- A word right before a colon between spaces. -/
def StartsKey (cs : List Char) : Prop :=
  ∃ c rest, cs = c :: rest ∧ isWordChar c = true ∧ [' ', ':', ' '] <+: rest.dropWhile isWordChar

theorem quoteKeys_blank {c : Char} (blank : isWordChar c = false) (rest : List Char) :
    quoteKeys (c :: rest) = c :: quoteKeys rest := by
  rw [quoteKeys, if_neg (by simp [blank])]

theorem quoteKeys_key {c : Char} {rest after : List Char} (word : isWordChar c = true)
    (colon : rest.dropWhile isWordChar = ' ' :: ':' :: ' ' :: after) :
    quoteKeys (c :: rest) =
      '"' :: c :: rest.takeWhile isWordChar ++ '"' :: ' ' :: ':' :: ' ' :: quoteKeys after := by
  rw [quoteKeys, if_pos word]
  split
  next found =>
    cases colon.symm.trans found
    rfl
  next other => exact absurd colon (other after)

theorem quoteKeys_word {c : Char} {rest : List Char} (word : isWordChar c = true)
    (noColon : ¬[' ', ':', ' '] <+: rest.dropWhile isWordChar) :
    quoteKeys (c :: rest) =
      c :: rest.takeWhile isWordChar ++ quoteKeys (rest.dropWhile isWordChar) := by
  rw [quoteKeys, if_pos word]
  split
  next found =>
    rw [found] at noColon
    exact absurd (List.prefix_append _ _) noColon
  next => rfl

theorem skips_quoteKeys : Skips quoteKeys StartsKey := by
  intro c rest apart
  by_cases word : isWordChar c = true
  · have noColon : ¬[' ', ':', ' '] <+: rest.dropWhile isWordChar := fun colon =>
      apart ⟨c, rest, rfl, word, colon⟩
    rw [quoteKeys_word word noColon]
    cases rest with
    | nil => rfl
    | cons d rest =>
      -- What is left of the word is a word that is no key either.
      by_cases more : isWordChar d = true
      · rw [List.dropWhile_cons_of_pos more] at noColon
        rw [List.takeWhile_cons_of_pos more, List.dropWhile_cons_of_pos more, quoteKeys_word more noColon]
        rfl
      · rw [List.takeWhile_cons_of_neg more, List.dropWhile_cons_of_neg more]
        rfl
  · exact quoteKeys_blank (by simpa using word) rest

/-- A digit with the suffix of a long number. -/
def StartsSuffix (cs : List Char) : Prop :=
  ∃ d rest, cs = d :: 'L' :: rest ∧ Text.isScriptDigit d = true

/-- What follows the suffix of a number, if it has one. -/
def afterSuffix : List Char → List Char
  | 'L' :: rest => rest
  | rest => rest

theorem longSuffixes_other {c : Char} (other : Text.isScriptDigit c = false) (rest : List Char) :
    longSuffixes (c :: rest) = c :: longSuffixes rest := by
  rw [longSuffixes, if_neg (by simp [other])]

theorem longSuffixes_digit {c : Char} (digit : Text.isScriptDigit c = true) (rest : List Char) :
    longSuffixes (c :: rest) = c :: rest.takeWhile Text.isScriptDigit
      ++ longSuffixes (afterSuffix (rest.dropWhile Text.isScriptDigit)) := by
  rw [longSuffixes, if_pos digit]
  split
  next found => rw [found, afterSuffix]
  next bare => rw [afterSuffix.eq_2 _ bare]

theorem longSuffixes_suffix {c : Char} (digit : Text.isScriptDigit c = true) (rest : List Char) :
    longSuffixes (c :: 'L' :: rest) = c :: longSuffixes rest := by
  rw [longSuffixes_digit digit, List.takeWhile_cons_of_neg (by decide),
    List.dropWhile_cons_of_neg (by decide), afterSuffix]
  rfl

theorem skips_longSuffixes : Skips longSuffixes StartsSuffix := by
  intro c rest apart
  by_cases digit : Text.isScriptDigit c = true
  · cases rest with
    | nil => rw [longSuffixes_digit digit]; rfl
    | cons d rest =>
      by_cases more : Text.isScriptDigit d = true
      · rw [longSuffixes_digit digit, longSuffixes_digit more, List.takeWhile_cons_of_pos more,
          List.dropWhile_cons_of_pos more]
        rfl
      · have bare : d ≠ 'L' := by
          rintro rfl
          exact apart ⟨c, rest, rfl, digit⟩
        rw [longSuffixes_digit digit, List.takeWhile_cons_of_neg more, List.dropWhile_cons_of_neg more,
          afterSuffix.eq_2 _ (by simp [bare])]
        rfl
  · exact longSuffixes_other (by simpa using digit) rest

end IntervalStats.GroupText
