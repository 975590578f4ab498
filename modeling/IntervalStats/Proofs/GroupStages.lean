import IntervalStats.Proofs.GroupPasses
import IntervalStats.Proofs.JsonText

/-!
# Stages of the translation

A layout goes through the passes of the translation line by line. A `Stage` says how keys, literals and
the ends of settings and groups look after some of the passes, and `Layout.write` is a layout at a stage.
A pass that takes each line to the same line of the next stage (`Translates`) takes all layouts there.
Only the pass that drops commas looks beyond a line, at the brace that may follow
(`trailingCommas_write`). `toJson_print` puts the passes together.
-/

namespace IntervalStats.GroupText

open Json (Tree)

/-- A literal without the suffix of a long integer. -/
def Literal.plain : Literal → List Char
  | integer value _ => (Numeral.ofInt value).text
  | literal => literal.print

/-- How the parts of a layout look at one stage of the translation. What stands after a setting or a group
depends on what follows it. -/
structure Stage where
  key : String → List Char
  mark : List Char
  literal : Literal → List Char
  stop : Layout → List Char

namespace Stage

variable (stage : Stage)

def settingLine (indent : Nat) (key : String) (literal : Literal) (rest : Layout) : List Char :=
  spaces indent ++ stage.key key ++ stage.mark ++ stage.literal literal ++ stage.stop rest ++ ['\n']

def headerLine (indent : Nat) (key : String) : List Char :=
  spaces indent ++ stage.key key ++ [' ', ':', ' ', '\n']

def closingLine (indent : Nat) (rest : Layout) : List Char :=
  spaces indent ++ '\x7d' :: stage.stop rest ++ ['\n']

end Stage

def openingLine (indent : Nat) : List Char :=
  spaces indent ++ ['\x7b', '\n']

/-- A layout at a stage. -/
def Layout.write (stage : Stage) : Layout → List Char
  | nil => []
  | setting indent key literal rest => stage.settingLine indent key literal rest ++ rest.write stage
  | group indent key opening inner closing rest =>
    stage.headerLine indent key ++ openingLine opening ++ inner.write stage
      ++ stage.closingLine closing rest ++ rest.write stage

/-! ## Stages -/

namespace Stage

/-- As it is printed. -/
def printed : Stage where
  key := String.toList
  mark := [' ', '=', ' ']
  literal := Literal.print
  stop _ := [';']

def assigned : Stage where
  key := String.toList
  mark := [' ', ':', ' ']
  literal := Literal.print
  stop _ := [';']

def terminated : Stage where
  key := String.toList
  mark := [' ', ':', ' ']
  literal := Literal.print
  stop _ := [',']

/-- A comma stands only where something follows. -/
def separator : Layout → List Char
  | .nil => []
  | _ => [',']

theorem eq_of_mem_separator {rest : Layout} {c : Char} (member : c ∈ separator rest) : c = ',' := by
  cases rest with
  | nil => cases member
  | _ => exact List.mem_singleton.1 member

def separated : Stage where
  key := String.toList
  mark := [' ', ':', ' ']
  literal := Literal.print
  stop := separator

def quoted : Stage where
  key k := '"' :: k.toList ++ ['"']
  mark := [' ', ':', ' ']
  literal := Literal.print
  stop := separator

/-- As JSON text. -/
def json : Stage where
  key k := '"' :: k.toList ++ ['"']
  mark := [' ', ':', ' ']
  literal := Literal.plain
  stop := separator

end Stage

theorem write_printed (layout : Layout) : layout.write .printed = layout.print := by
  induction layout with
  | nil => rfl
  | setting indent key literal rest ih =>
    simp [Layout.write, Layout.print, Stage.settingLine, Stage.printed, ← ih]
  | group indent key opening inner closing rest inside after =>
    simp [Layout.write, Layout.print, Stage.headerLine, Stage.closingLine, openingLine, Stage.printed,
      ← inside, ← after]

/-- A layout in the braces that the translation puts around it. -/
def Layout.document (stage : Stage) (layout : Layout) : List Char :=
  openingLine 0 ++ layout.write stage ++ ['\x7d']

/-- A pass that takes every line of one stage to the same line of the next. -/
structure Translates (pass : List Char → List Char) (stage next : Stage) : Prop where
  setting : ∀ indent key literal rest tail, IsKey key → literal.WellFormed →
    pass (stage.settingLine indent key literal rest ++ tail) =
      next.settingLine indent key literal rest ++ pass tail
  header : ∀ indent key tail, IsKey key →
    pass (stage.headerLine indent key ++ tail) = next.headerLine indent key ++ pass tail
  opening : ∀ indent tail, pass (openingLine indent ++ tail) = openingLine indent ++ pass tail
  closing : ∀ indent rest tail,
    pass (stage.closingLine indent rest ++ tail) = next.closingLine indent rest ++ pass tail
  last : pass ['\x7d'] = ['\x7d']

namespace Translates

variable {pass : List Char → List Char} {stage next : Stage} {layout : Layout}

theorem write (translates : Translates pass stage next) (wellFormed : layout.WellFormed)
    (tail : List Char) : pass (layout.write stage ++ tail) = layout.write next ++ pass tail := by
  induction layout generalizing tail with
  | nil => rfl
  | setting indent key literal rest ih =>
    obtain ⟨isKey, -, isLiteral, others⟩ := wellFormed
    rw [Layout.write, Layout.write, List.append_assoc, translates.setting _ _ _ _ _ isKey isLiteral,
      ih others, List.append_assoc]
  | group indent key start inner finish rest inside after =>
    obtain ⟨isKey, -, within, others⟩ := wellFormed
    simp only [Layout.write, List.append_assoc]
    rw [translates.header _ _ _ isKey, translates.opening, inside within, translates.closing, after others]

theorem document (translates : Translates pass stage next) (wellFormed : layout.WellFormed) :
    pass (layout.document stage) = layout.document next := by
  rw [Layout.document, List.append_assoc, translates.opening, translates.write wellFormed, translates.last,
    Layout.document, List.append_assoc]

end Translates

/-! ## Characters of a layout -/

theorem IsKey.not_mem {key : String} (isKey : IsKey key) {c : Char} (foreign : isKeyChar c = false) :
    c ∉ key.toList := by
  intro member
  rw [isKey.chars c member] at foreign
  cases foreign

theorem isKeyChar_of_isDigit {c : Char} (digit : c.isDigit = true) : isKeyChar c = true := by
  simp [isKeyChar, Char.isAlphanum, digit]

theorem text_ofInt (n : Int) :
    (Numeral.ofInt n).text = (if n < 0 then ['-'] else []) ++ decimalDigits n.natAbs := by
  simp [Numeral.text, Numeral.ofInt, Numeral.exponentText]

theorem mem_text_ofInt {n : Int} {c : Char} (member : c ∈ (Numeral.ofInt n).text) :
    c = '-' ∨ c.isDigit = true := by
  rw [text_ofInt, List.mem_append] at member
  rcases member with sign | digit
  · split at sign
    · exact .inl (List.mem_singleton.1 sign)
    · cases sign
  · exact .inr (Json.isDigit_of_mem_decimalDigits digit)

theorem isKeyChar_of_mem_text {n : Int} {c : Char} (member : c ∈ (Numeral.ofInt n).text) :
    isKeyChar c = true := by
  rcases mem_text_ofInt member with rfl | digit
  · rfl
  · exact isKeyChar_of_isDigit digit

theorem toNat_of_isKeyChar {c : Char} (isKeyChar : isKeyChar c = true) :
    42 ≤ c.toNat ∧ c.toNat ≤ 122 := by
  simp only [GroupText.isKeyChar, Bool.or_eq_true, decide_eq_true_eq] at isKeyChar
  rcases isKeyChar with ((alphanumeric | rfl) | rfl) | rfl
  · have kinds : ((c.isUpper || c.isLower) || c.isDigit) = true := alphanumeric
    rw [Bool.or_eq_true, Bool.or_eq_true] at kinds
    rcases kinds with (upper | lower) | digit
    · have range : 'A'.val ≤ c.val ∧ c.val ≤ 'Z'.val := of_decide_eq_true upper
      rw [UInt32.le_iff_toNat_le, UInt32.le_iff_toNat_le] at range
      exact ⟨Nat.le_trans (by decide) range.1, Nat.le_trans range.2 (by decide)⟩
    · have range : 'a'.val ≤ c.val ∧ c.val ≤ 'z'.val := by
        have both : (decide ('a'.val ≤ c.val) && decide (c.val ≤ 'z'.val)) = true := lower
        simpa using both
      rw [UInt32.le_iff_toNat_le, UInt32.le_iff_toNat_le] at range
      exact ⟨Nat.le_trans (by decide) range.1, Nat.le_trans range.2 (by decide)⟩
    · have range := Char.isDigit_iff_toNat.1 digit
      exact ⟨Nat.le_trans (by decide) range.1, Nat.le_trans range.2 (by decide)⟩
  · decide
  · decide
  · decide

/-- All blanks are outside the range of the characters of keys. -/
theorem isWordChar_of_isKeyChar {c : Char} (isKeyChar : isKeyChar c = true) : isWordChar c = true := by
  have range := toNat_of_isKeyChar isKeyChar
  have outside : ∀ r ∈ Text.blankRanges, r.2 < 42 ∨ 122 < r.1 := by decide
  rw [isWordChar, Bool.not_eq_true', Text.isBlank, List.any_eq_false]
  intro r member
  have := outside r member
  simp only [Bool.and_eq_true, decide_eq_true_eq]
  omega

/-- A literal is a word, or a string in quotes. -/
theorem Literal.print_cases {literal : Literal} (wellFormed : literal.WellFormed) :
    (∀ c ∈ literal.print, isKeyChar c = true) ∨
      ∃ content, IsContent content ∧ literal.print = '"' :: content.toList ++ ['"'] := by
  cases literal with
  | integer value long =>
    refine .inl fun c member => ?_
    rcases List.mem_append.1 member with digit | suffix
    · exact isKeyChar_of_mem_text digit
    · cases long with
      | false => cases suffix
      | true =>
        obtain rfl := List.mem_singleton.1 suffix
        rfl
  | flag value =>
    refine .inl (List.all_eq_true.1 ?_)
    cases value <;> decide
  | text content => exact .inr ⟨content, wellFormed, rfl⟩

theorem Literal.newline_not_mem {literal : Literal} (wellFormed : literal.WellFormed) :
    '\n' ∉ literal.print := by
  rcases literal.print_cases wellFormed with word | ⟨content, isContent, same⟩
  · intro member
    exact absurd (word _ member) (by decide)
  · rw [same]
    simp only [List.cons_append, List.mem_cons, List.mem_append, List.not_mem_nil, or_false, not_or]
    refine ⟨by decide, fun member => ?_, by decide⟩
    exact absurd (isContent.plain _ member).2.2 (by decide)

theorem IsKey.not_mem_lead {key : String} (isKey : IsKey key) {c : Char} (foreign : isKeyChar c = false)
    (visible : c ≠ ' ') (indent : Nat) : c ∉ spaces indent ++ key.toList := by
  rw [List.mem_append, not_or]
  exact ⟨fun member => visible (List.eq_of_mem_replicate member), isKey.not_mem foreign⟩

theorem not_mem_spaces {c : Char} (visible : c ≠ ' ') (n : Nat) : c ∉ spaces n := fun member =>
  visible (List.eq_of_mem_replicate member)

/-- No literal has a mark of settings or groups between spaces. -/
theorem Literal.apart_mark {literal : Literal} (wellFormed : literal.WellFormed) {mark : Char}
    (isMark : mark = '=' ∨ mark = ':') (rest : List Char) :
    Apart ([' ', mark, ' '] <+: ·) literal.print rest := by
  have begins {c : Char} {cs : List Char} (found : [' ', mark, ' '] <+: c :: cs) : c = ' ' :=
    (List.cons_prefix_cons.1 found).1.symm
  rcases literal.print_cases wellFormed with word | ⟨content, isContent, same⟩
  · apply apart_of_forall
    intro c member cs found
    obtain rfl := begins found
    exact absurd (word _ member) (by decide)
  · have free : ¬[' ', mark, ' '] <:+: content.toList := by
      rcases isMark with rfl | rfl
      · exact isContent.noAssignment
      · exact isContent.noColon
    have absent : '"' ∉ [' ', mark, ' '] := by rcases isMark with rfl | rfl <;> decide
    rw [same]
    refine apart_cons.2 ⟨fun found => absurd (begins found) (by decide), .append ?_ ?_⟩
    · exact apart_of_not_infix absent free
    · exact apart_cons.2 ⟨fun found => absurd (begins found) (by decide), .nil⟩

/-! ## Assignments -/

theorem apart_assignment {s rest : List Char} (absent : '=' ∉ s) (next : rest.head? ≠ some '=') :
    Apart ([' ', '=', ' '] <+: ·) s rest := by
  refine apart_of_second (fun cs found => ?_) absent next
  obtain ⟨rest, rfl⟩ := found
  exact ⟨_, _, rfl⟩

theorem translates_assignments : Translates assignments .printed .assigned where
  setting indent key literal rest tail isKey isLiteral := by
    have lead : Apart ([' ', '=', ' '] <+: ·) (spaces indent ++ key.toList)
        (' ' :: '=' :: ' ' :: (literal.print ++ ';' :: '\n' :: tail)) :=
      apart_assignment (isKey.not_mem_lead rfl (by decide) indent) (by simp)
    have kept := skips_assignments.append (Literal.apart_mark isLiteral (.inl rfl) (';' :: '\n' :: tail))
    simpa [Stage.settingLine, Stage.printed, Stage.assigned, assignments, kept] using
      skips_assignments.append lead
  header indent key tail isKey := by
    have lead : Apart ([' ', '=', ' '] <+: ·) (spaces indent ++ key.toList)
        (' ' :: ':' :: ' ' :: '\n' :: tail) :=
      apart_assignment (isKey.not_mem_lead rfl (by decide) indent) (by simp)
    simpa [Stage.headerLine, Stage.printed, Stage.assigned, assignments] using
      skips_assignments.append lead
  opening indent tail := by
    have lead : Apart ([' ', '=', ' '] <+: ·) (spaces indent) ('\x7b' :: '\n' :: tail) :=
      apart_assignment (not_mem_spaces (by decide) indent) (by simp)
    simpa [openingLine, assignments] using skips_assignments.append lead
  closing indent rest tail := by
    have lead : Apart ([' ', '=', ' '] <+: ·) (spaces indent) ('\x7d' :: ';' :: '\n' :: tail) :=
      apart_assignment (not_mem_spaces (by decide) indent) (by simp)
    simpa [Stage.closingLine, Stage.printed, Stage.assigned, assignments] using
      skips_assignments.append lead
  last := by simp [assignments]

/-! ## Terminators -/

theorem apart_terminator {s rest : List Char} (absent : '\n' ∉ s) (next : rest.head? ≠ some '\n') :
    Apart ([';', '\n'] <+: ·) s rest := by
  refine apart_of_second (fun cs found => ?_) absent next
  obtain ⟨rest, rfl⟩ := found
  exact ⟨_, _, rfl⟩

theorem translates_terminators : Translates terminators .assigned .terminated where
  setting indent key literal rest tail isKey isLiteral := by
    have line : Apart ([';', '\n'] <+: ·)
        (spaces indent ++ key.toList ++ [' ', ':', ' '] ++ literal.print) (';' :: '\n' :: tail) := by
      refine apart_terminator ?_ (by simp)
      rw [List.mem_append, List.mem_append, not_or, not_or]
      exact ⟨⟨isKey.not_mem_lead rfl (by decide) indent, by decide⟩, Literal.newline_not_mem isLiteral⟩
    simpa [Stage.settingLine, Stage.assigned, Stage.terminated, terminators] using
      skips_terminators.append line
  header indent key tail isKey := by
    have lead : Apart ([';', '\n'] <+: ·) (spaces indent ++ key.toList)
        (' ' :: ':' :: ' ' :: '\n' :: tail) :=
      apart_terminator (isKey.not_mem_lead rfl (by decide) indent) (by simp)
    simpa [Stage.headerLine, Stage.assigned, Stage.terminated, terminators] using
      skips_terminators.append lead
  opening indent tail := by
    have lead : Apart ([';', '\n'] <+: ·) (spaces indent) ('\x7b' :: '\n' :: tail) :=
      apart_terminator (not_mem_spaces (by decide) indent) (by simp)
    simpa [openingLine, terminators] using skips_terminators.append lead
  closing indent rest tail := by
    have lead : Apart ([';', '\n'] <+: ·) (spaces indent) ('\x7d' :: ';' :: '\n' :: tail) :=
      apart_terminator (not_mem_spaces (by decide) indent) (by simp)
    simpa [Stage.closingLine, Stage.assigned, Stage.terminated, terminators] using
      skips_terminators.append lead
  last := by simp [terminators]

/-! ## Separators -/

theorem trailingCommas_append {s rest : List Char} (absent : ',' ∉ s) :
    trailingCommas (s ++ rest) = s ++ trailingCommas rest := by
  refine skips_trailingCommas.append (apart_of_forall fun c member cs found => ?_)
  obtain ⟨_, _, _, same, -⟩ := found
  cases same
  exact absent member

theorem trailingCommas_line {s rest : List Char} (absent : '\n' ∉ s) (next : rest.head? ≠ some '\n') :
    trailingCommas (s ++ rest) = s ++ trailingCommas rest := by
  refine skips_trailingCommas.append (apart_of_second (fun cs found => ?_) absent next)
  obtain ⟨others, _, _, same, -⟩ := found
  exact ⟨_, others, same⟩

theorem trailingCommas_brace {rest blanks after : List Char}
    (braced : blanksToBrace? rest = some (blanks, after)) :
    trailingCommas (',' :: '\n' :: rest) = '\n' :: blanks ++ '\x7d' :: trailingCommas after := by
  rw [trailingCommas]
  split
  next found =>
    cases braced.symm.trans found
    rfl
  next none => cases braced.symm.trans none

theorem blanksToBrace?_spaces {c : Char} (visible : Text.isBlank c = false) (n : Nat)
    (rest : List Char) :
    blanksToBrace? (spaces n ++ c :: rest) = if c = '\x7d' then some (spaces n, rest) else none := by
  have blank : ∀ b ∈ spaces n, Text.isBlank b = true := by
    intro b member
    rw [List.eq_of_mem_replicate member]
    decide
  rw [blanksToBrace?, List.dropWhile_append_of_pos blank, List.takeWhile_append_of_pos blank,
    List.dropWhile_cons_of_neg (by simp [visible]), List.takeWhile_cons_of_neg (by simp [visible]),
    List.append_nil]
  split
  next found =>
    cases found
    rw [if_pos rfl]
  next other => rw [if_neg fun same => other rest (by rw [same])]

theorem trailingCommas_closing (n : Nat) (tail : List Char) :
    trailingCommas (spaces n ++ '\x7d' :: tail) = spaces n ++ '\x7d' :: trailingCommas tail := by
  have absent : ',' ∉ spaces n ++ ['\x7d'] := by
    rw [List.mem_append, not_or]
    exact ⟨not_mem_spaces (by decide) n, by decide⟩
  have kept : trailingCommas (spaces n ++ ['\x7d'] ++ tail) = _ := trailingCommas_append absent
  simpa using kept

/-- What is not empty begins with a key. -/
theorem exists_write_eq {layout : Layout} (wellFormed : layout.WellFormed) (nonempty : layout ≠ .nil) :
    ∃ indent c rest, isKeyChar c = true ∧ layout.write .terminated = spaces indent ++ c :: rest := by
  have starts {key : String} (isKey : IsKey key) (indent : Nat) (rest : List Char) :
      ∃ indent' c rest', isKeyChar c = true ∧
        spaces indent ++ (key.toList ++ rest) = spaces indent' ++ c :: rest' := by
    obtain ⟨c, cs, split⟩ := List.exists_cons_of_ne_nil isKey.nonempty
    have isKeyChar := isKey.chars c (split ▸ List.mem_cons_self ..)
    exact ⟨indent, c, cs ++ rest, isKeyChar, by rw [split, List.cons_append]⟩
  cases layout with
  | nil => exact absurd rfl nonempty
  | setting indent key literal rest =>
    simp only [Layout.write, Stage.settingLine, List.append_assoc]
    exact starts wellFormed.1 _ _
  | group indent key opening inner closing rest =>
    simp only [Layout.write, Stage.headerLine, List.append_assoc]
    exact starts wellFormed.1 _ _

/-- The comma after a setting or a group goes where the group around it ends. -/
theorem trailingCommas_stop {rest : Layout} (wellFormed : rest.WellFormed) (n : Nat) (tail : List Char) :
    trailingCommas (',' :: '\n' :: (rest.write .terminated ++ (spaces n ++ '\x7d' :: tail))) =
      Stage.separator rest ++
        '\n' :: trailingCommas (rest.write .terminated ++ (spaces n ++ '\x7d' :: tail)) := by
  by_cases last : rest = .nil
  · subst last
    have braced := blanksToBrace?_spaces (c := '\x7d') (by decide) n tail
    rw [if_pos rfl] at braced
    rw [Layout.write, List.nil_append, trailingCommas_brace braced, trailingCommas_closing]
    rfl
  · obtain ⟨indent, c, others, isKeyChar, starts⟩ := exists_write_eq wellFormed last
    have comma : Stage.separator rest = [','] := by
      cases rest with
      | nil => exact absurd rfl last
      | _ => rfl
    have visible : Text.isBlank c = false := by
      simpa [isWordChar] using isWordChar_of_isKeyChar isKeyChar
    have noBrace : c ≠ '\x7d' := by
      rintro rfl
      cases isKeyChar
    rw [skips_trailingCommas, ← List.singleton_append (x := '\n'), trailingCommas_append (by decide),
      comma]
    · rfl
    · rintro ⟨_, _, _, same, braced⟩
      cases same
      rw [starts, List.append_assoc, List.cons_append, blanksToBrace?_spaces visible,
        if_neg noBrace] at braced
      cases braced

theorem trailingCommas_write {layout : Layout} (wellFormed : layout.WellFormed) (n : Nat)
    (tail : List Char) :
    trailingCommas (layout.write .terminated ++ (spaces n ++ '\x7d' :: tail)) =
      layout.write .separated ++ (spaces n ++ '\x7d' :: trailingCommas tail) := by
  induction layout generalizing n tail with
  | nil => exact trailingCommas_closing n tail
  | setting indent key literal rest ih =>
    obtain ⟨isKey, -, isLiteral, others⟩ := wellFormed
    have absent : '\n' ∉ spaces indent ++ key.toList ++ [' ', ':', ' '] ++ literal.print := by
      rw [List.mem_append, List.mem_append, not_or, not_or]
      exact ⟨⟨isKey.not_mem_lead rfl (by decide) indent, by decide⟩, Literal.newline_not_mem isLiteral⟩
    have stop := trailingCommas_stop others n tail
    rw [ih others] at stop
    have line := (trailingCommas_line absent (by simp)).trans (congrArg (_ ++ ·) stop)
    simpa [Layout.write, Stage.settingLine, Stage.terminated, Stage.separated] using line
  | group indent key opening inner closing rest inside after =>
    obtain ⟨isKey, -, within, others⟩ := wellFormed
    have brace : ',' ∉ openingLine opening := by
      rw [openingLine, List.mem_append, not_or]
      exact ⟨not_mem_spaces (by decide) opening, by decide⟩
    have absent : ',' ∉ spaces indent ++ key.toList ++ [' ', ':', ' ', '\n'] ++ openingLine opening := by
      rw [List.mem_append, List.mem_append, not_or, not_or]
      exact ⟨⟨isKey.not_mem_lead rfl (by decide) indent, by decide⟩, brace⟩
    have stop := trailingCommas_stop others n tail
    rw [after others] at stop
    have members := inside within closing
      (',' :: '\n' :: (rest.write .terminated ++ (spaces n ++ '\x7d' :: tail)))
    rw [stop] at members
    have lines := (trailingCommas_append absent).trans (congrArg (_ ++ ·) members)
    simpa [Layout.write, Stage.headerLine, Stage.closingLine, Stage.terminated, Stage.separated]
      using lines

theorem trailingCommas_document {layout : Layout} (wellFormed : layout.WellFormed) :
    trailingCommas (layout.document .terminated) = layout.document .separated := by
  have inside := trailingCommas_write wellFormed 0 []
  rw [trailingCommas, spaces, List.replicate_zero, List.nil_append] at inside
  rw [Layout.document, List.append_assoc, trailingCommas_append (by decide), inside, Layout.document,
    List.append_assoc]

/-! ## Keys -/

/-- No key begins in a line without a colon between spaces. -/
theorem apart_key {s rest : List Char} (apart : Apart ([' ', ':', ' '] <+: ·) s ('\n' :: rest)) :
    Apart StartsKey s ('\n' :: rest) := by
  intro front back split nonempty found
  obtain ⟨c, others, same, word, colon⟩ := found
  obtain ⟨d, back, rfl⟩ := List.exists_cons_of_ne_nil nonempty
  rw [List.cons_append, List.cons.injEq] at same
  obtain ⟨rfl, rfl⟩ := same
  have rest : (back ++ '\n' :: rest).dropWhile isWordChar = back.dropWhile isWordChar ++ '\n' :: rest := by
    rw [List.dropWhile_append]
    split
    next none =>
      rw [List.isEmpty_iff.1 none, List.nil_append, List.dropWhile_cons_of_neg (by decide)]
    next => rfl
  rw [rest] at colon
  by_cases none : back.dropWhile isWordChar = []
  · rw [none, List.nil_append, List.cons_prefix_cons] at colon
    exact absurd colon.1 (by decide)
  · refine apart (front ++ d :: back.takeWhile isWordChar) _ ?_ none colon
    rw [split, List.append_assoc, List.cons_append, List.takeWhile_append_dropWhile]

theorem quoteKeys_append {key : String} (isKey : IsKey key) (rest : List Char) :
    quoteKeys (key.toList ++ ' ' :: ':' :: ' ' :: rest) =
      '"' :: key.toList ++ '"' :: ' ' :: ':' :: ' ' :: quoteKeys rest := by
  have words : ∀ c ∈ key.toList, isWordChar c = true := fun c member =>
    isWordChar_of_isKeyChar (isKey.chars c member)
  obtain ⟨c, cs, split⟩ := List.exists_cons_of_ne_nil isKey.nonempty
  rw [split] at words ⊢
  obtain ⟨first, others⟩ := List.forall_mem_cons.1 words
  have stops : isWordChar ' ' = false := by decide
  have colon : (cs ++ ' ' :: ':' :: ' ' :: rest).dropWhile isWordChar = ' ' :: ':' :: ' ' :: rest := by
    rw [List.dropWhile_append_of_pos others, List.dropWhile_cons_of_neg (by simp [stops])]
  rw [List.cons_append, quoteKeys_key first colon, List.takeWhile_append_of_pos others,
    List.takeWhile_cons_of_neg (by simp [stops]), List.append_nil]

theorem quoteKeys_spaces (n : Nat) (rest : List Char) :
    quoteKeys (spaces n ++ rest) = spaces n ++ quoteKeys rest := by
  refine skips_quoteKeys.append (apart_of_forall fun c member cs found => ?_)
  obtain ⟨d, others, same, word, -⟩ := found
  cases same
  rw [List.eq_of_mem_replicate member] at word
  exact absurd word (by decide)

/-- The rest of a line in which no key begins. -/
theorem quoteKeys_line {s : List Char} (tail : List Char)
    (apart : Apart ([' ', ':', ' '] <+: ·) s ('\n' :: tail)) :
    quoteKeys (s ++ '\n' :: tail) = s ++ '\n' :: quoteKeys tail := by
  rw [skips_quoteKeys.append (apart_key apart), quoteKeys_blank (by decide)]

theorem apart_colon {s : List Char} (absent : ' ' ∉ s) (rest : List Char) :
    Apart ([' ', ':', ' '] <+: ·) s rest :=
  apart_of_forall fun _ member _ found => absent ((List.cons_prefix_cons.1 found).1 ▸ member)

theorem space_not_mem_separator (rest : Layout) : ' ' ∉ Stage.separator rest := fun member =>
  absurd (Stage.eq_of_mem_separator member) (by decide)

theorem translates_quoteKeys : Translates quoteKeys .separated .quoted where
  setting indent key literal rest tail isKey isLiteral := by
    have value : Apart ([' ', ':', ' '] <+: ·) (literal.print ++ Stage.separator rest) ('\n' :: tail) :=
      .append (Literal.apart_mark isLiteral (.inr rfl) _) (apart_colon (space_not_mem_separator rest) _)
    have line := quoteKeys_spaces indent
      (key.toList ++ ' ' :: ':' :: ' ' :: (literal.print ++ Stage.separator rest ++ '\n' :: tail))
    rw [quoteKeys_append isKey, quoteKeys_line tail value] at line
    simpa [Stage.settingLine, Stage.separated, Stage.quoted] using line
  header indent key tail isKey := by
    have line := quoteKeys_spaces indent (key.toList ++ ' ' :: ':' :: ' ' :: '\n' :: tail)
    rw [quoteKeys_append isKey, quoteKeys_blank (by decide)] at line
    simpa [Stage.headerLine, Stage.separated, Stage.quoted] using line
  opening indent tail := by
    have line := quoteKeys_spaces indent (['\x7b'] ++ '\n' :: tail)
    rw [quoteKeys_line tail (apart_colon (by decide) _)] at line
    simpa [openingLine] using line
  closing indent rest tail := by
    have absent : ' ' ∉ '\x7d' :: Stage.separator rest := by simpa using space_not_mem_separator rest
    have line := quoteKeys_spaces indent ('\x7d' :: Stage.separator rest ++ '\n' :: tail)
    rw [quoteKeys_line tail (apart_colon absent _)] at line
    simpa [Stage.closingLine, Stage.separated, Stage.quoted] using line
  last := by
    rw [quoteKeys_word (by decide) (by simp), List.takeWhile_nil, List.dropWhile_nil, quoteKeys,
      List.append_nil]

/-! ## Suffixes -/

theorem apart_suffix {s rest : List Char} (free : SuffixFree s) (next : rest.head? ≠ some 'L') :
    Apart StartsSuffix s rest := by
  induction s with
  | nil => exact .nil
  | cons c s ih =>
    refine apart_cons.2 ⟨?_, ih free.tail⟩
    rintro ⟨d, others, same, digit⟩
    rw [List.cons_append, List.cons.injEq] at same
    obtain ⟨rfl, same⟩ := same
    cases s with
    | nil =>
      rw [List.nil_append] at same
      rw [same] at next
      exact next rfl
    | cons e s =>
      rw [List.cons_append, List.cons.injEq] at same
      obtain ⟨rfl, -⟩ := same
      exact (List.isChain_cons_cons.1 free).1 ⟨digit, rfl⟩

theorem apart_suffix_of_any {s : List Char} (none : s.any Text.isScriptDigit = false)
    (rest : List Char) : Apart StartsSuffix s rest := by
  refine apart_of_forall fun c member cs found => ?_
  obtain ⟨d, others, same, digit⟩ := found
  cases same
  exact List.any_eq_false.1 none _ member digit

theorem isScriptDigit_of_isDigit {c : Char} (digit : c.isDigit = true) : Text.isScriptDigit c = true := by
  refine List.any_eq_true.2 ⟨0x30, List.mem_cons_self .., ?_⟩
  have range : 48 ≤ c.toNat ∧ c.toNat ≤ 57 := Char.isDigit_iff_toNat.1 digit
  simp only [Bool.and_eq_true, decide_eq_true_eq]
  omega

/-- The text of an integer ends in a digit. -/
theorem exists_text_eq_concat (n : Int) :
    ∃ front d, (Numeral.ofInt n).text = front ++ [d] ∧ d.isDigit = true := by
  have nonempty : decimalDigits n.natAbs ≠ [] := Nat.toDigits_ne_nil
  refine ⟨(if n < 0 then ['-'] else []) ++ (decimalDigits n.natAbs).dropLast,
    (decimalDigits n.natAbs).getLast nonempty, ?_,
    Json.isDigit_of_mem_decimalDigits (List.getLast_mem nonempty)⟩
  rw [List.append_assoc, List.dropLast_concat_getLast, text_ofInt]

theorem longSuffixes_integer (n : Int) (long : Bool) {rest : List Char} (next : rest.head? ≠ some 'L') :
    longSuffixes ((Literal.integer n long).print ++ rest) =
      (Numeral.ofInt n).text ++ longSuffixes rest := by
  have bare : 'L' ∉ (Numeral.ofInt n).text := by
    intro member
    rcases mem_text_ofInt member with sign | digit
    · cases sign
    · cases digit
  have apart {s rest : List Char} (absent : 'L' ∉ s) (next : rest.head? ≠ some 'L') :
      Apart StartsSuffix s rest := by
    refine apart_of_second (fun cs found => ?_) absent next
    obtain ⟨d, others, same, -⟩ := found
    exact ⟨d, others, same⟩
  cases long with
  | false => simpa [Literal.print] using skips_longSuffixes.append (apart bare next)
  | true =>
    obtain ⟨front, d, split, digit⟩ := exists_text_eq_concat n
    have within : 'L' ∉ front := fun member => bare (split ▸ List.mem_append_left _ member)
    have last : (d :: 'L' :: rest).head? ≠ some 'L' := by
      rintro ⟨⟩
      cases digit
    have line := skips_longSuffixes.append (apart within last)
    rw [longSuffixes_suffix (isScriptDigit_of_isDigit digit)] at line
    simpa [Literal.print, split] using line

theorem longSuffixes_literal {literal : Literal} (wellFormed : literal.WellFormed) {rest : List Char}
    (next : rest.head? ≠ some 'L') :
    longSuffixes (literal.print ++ rest) = literal.plain ++ longSuffixes rest := by
  cases literal with
  | integer value long => exact longSuffixes_integer value long next
  | flag value =>
    refine skips_longSuffixes.append (apart_suffix_of_any ?_ rest)
    cases value <;> decide
  | text content =>
    have quote (rest : List Char) : Apart StartsSuffix ['"'] rest :=
      apart_suffix_of_any (by decide) rest
    refine skips_longSuffixes.append (s := ['"'] ++ content.toList ++ ['"']) (.append (.append ?_ ?_) ?_)
    · exact quote _
    · exact apart_suffix wellFormed.suffixFree (by simp)
    · exact quote _

theorem longSuffixes_plain {s : List Char} (none : s.any Text.isScriptDigit = false)
    (rest : List Char) : longSuffixes (s ++ rest) = s ++ longSuffixes rest :=
  skips_longSuffixes.append (apart_suffix_of_any none rest)

theorem longSuffixes_spaces (n : Nat) (rest : List Char) :
    longSuffixes (spaces n ++ rest) = spaces n ++ longSuffixes rest := by
  apply longSuffixes_plain
  rw [List.any_eq_false]
  intro c member
  rw [List.eq_of_mem_replicate member]
  decide

theorem longSuffixes_stop (layout : Layout) (rest : List Char) :
    longSuffixes (Stage.separator layout ++ '\n' :: rest) =
      Stage.separator layout ++ '\n' :: longSuffixes rest := by
  have none : (Stage.separator layout).any Text.isScriptDigit = false := by
    rw [List.any_eq_false]
    intro c member
    rw [Stage.eq_of_mem_separator member]
    decide
  rw [longSuffixes_plain none, longSuffixes_other (by decide)]

theorem longSuffixes_key {key : String} (isKey : IsKey key) (rest : List Char) :
    longSuffixes ('"' :: (key.toList ++ '"' :: ' ' :: ':' :: ' ' :: rest)) =
      '"' :: (key.toList ++ '"' :: ' ' :: ':' :: ' ' :: longSuffixes rest) := by
  have mark := longSuffixes_plain (s := ['"', ' ', ':', ' ']) (by decide) rest
  rw [List.cons_append, List.cons_append, List.cons_append, List.cons_append, List.nil_append] at mark
  rw [longSuffixes_other (by decide),
    skips_longSuffixes.append (apart_suffix isKey.suffixFree (by simp)), mark]
  rfl

theorem translates_longSuffixes : Translates longSuffixes .quoted .json where
  setting indent key literal rest tail isKey isLiteral := by
    have ends : (Stage.separator rest ++ '\n' :: tail).head? ≠ some 'L' := by
      cases rest <;> simp [Stage.separator]
    have line := longSuffixes_spaces indent
      ('"' :: (key.toList ++ '"' :: ' ' :: ':' :: ' ' ::
        (literal.print ++ (Stage.separator rest ++ '\n' :: tail))))
    rw [longSuffixes_key isKey, longSuffixes_literal isLiteral ends, longSuffixes_stop] at line
    simpa [Stage.settingLine, Stage.quoted, Stage.json] using line
  header indent key tail isKey := by
    have line := longSuffixes_spaces indent
      ('"' :: (key.toList ++ '"' :: ' ' :: ':' :: ' ' :: '\n' :: tail))
    rw [longSuffixes_key isKey, longSuffixes_other (by decide)] at line
    simpa [Stage.headerLine, Stage.quoted, Stage.json] using line
  opening indent tail := by
    have line := longSuffixes_spaces indent ('\x7b' :: '\n' :: tail)
    rw [longSuffixes_other (by decide), longSuffixes_other (by decide)] at line
    simpa [openingLine] using line
  closing indent rest tail := by
    have line := longSuffixes_spaces indent ('\x7d' :: (Stage.separator rest ++ '\n' :: tail))
    rw [longSuffixes_other (by decide), longSuffixes_stop] at line
    simpa [Stage.closingLine, Stage.quoted, Stage.json] using line
  last := by rw [longSuffixes_other (by decide), longSuffixes]

/-! ## All passes -/

theorem toJson_print {layout : Layout} (wellFormed : layout.WellFormed) :
    toJson layout.print = layout.document .json := by
  have printed : '\x7b' :: '\n' :: layout.print ++ ['\x7d'] = layout.document .printed := by
    rw [Layout.document, write_printed]
    rfl
  rw [toJson, printed, translates_assignments.document wellFormed,
    translates_terminators.document wellFormed, trailingCommas_document wellFormed,
    translates_quoteKeys.document wellFormed, translates_longSuffixes.document wellFormed]

end IntervalStats.GroupText
