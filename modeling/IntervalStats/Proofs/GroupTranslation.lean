import IntervalStats.Proofs.GroupStages
import IntervalStats.Proofs.LoadedConfig
import IntervalStats.Proofs.SettledValue

/-!
# Meaning of configuration text

The JSON text that a printed layout is translated to spells the tokens of what the layout says
(`spells_toJson`), so it is read back as that, and a configuration is loaded from the layout as from any
JSON text of the same value (`translation_preserves_meaning`).
-/

namespace IntervalStats

open Json (Tree Token Spells)

namespace GroupText

/-! ## Tokens -/

theorem spells_blanks {blanks : List Char} (blank : ∀ c ∈ blanks, Json.isSpace c = true)
    {ts : List Token} {cs : List Char} (spelled : Spells ts cs) : Spells ts (blanks ++ cs) := by
  cases spelled with
  | nil more => exact .nil (List.forall_mem_append.2 ⟨blank, more⟩)
  | cons more canonical ends others =>
    rw [← List.append_assoc, ← List.append_assoc]
    exact .cons (List.forall_mem_append.2 ⟨blank, more⟩) canonical ends others

theorem spells_blank {b : Char} (blank : Json.isSpace b = true) {ts : List Token} {cs : List Char}
    (spelled : Spells ts cs) : Spells ts (b :: cs) :=
  spells_blanks (List.forall_mem_singleton.2 blank) spelled

theorem spells_spaces (n : Nat) {ts : List Token} {cs : List Char} (spelled : Spells ts cs) :
    Spells ts (spaces n ++ cs) := by
  refine spells_blanks (fun c member => ?_) spelled
  rw [List.eq_of_mem_replicate member]
  rfl

theorem writeText_of_plain {s : String} (plain : ∀ c ∈ s.toList, c ≠ '"' ∧ c ≠ '\\' ∧ 0x20 ≤ c.toNat) :
    Json.writeText (some s) = '"' :: s.toList ++ ['"'] := by
  have each : ∀ c ∈ s.toList, Json.writeChar c = [c] := by
    intro c member
    obtain ⟨noQuote, noBackslash, visible⟩ := plain c member
    unfold Json.writeChar
    split
    · exact absurd rfl noQuote
    · exact absurd rfl noBackslash
    · exact absurd visible (by decide)
    · exact absurd visible (by decide)
    · exact absurd visible (by decide)
    · exact absurd visible (by decide)
    · exact absurd visible (by decide)
    · rw [if_neg (Nat.not_lt.2 visible)]
  rw [Json.writeText, List.flatMap_congr each, List.flatMap_singleton']

theorem IsKey.writeText {key : String} (isKey : IsKey key) :
    Json.writeText (some key) = '"' :: key.toList ++ ['"'] := by
  apply writeText_of_plain
  intro c member
  have isKeyChar := isKey.chars c member
  have range := toNat_of_isKeyChar isKeyChar
  refine ⟨?_, ?_, by omega⟩
  · rintro rfl
    cases isKeyChar
  · rintro rfl
    cases isKeyChar

theorem Literal.spells {literal : Literal} (wellFormed : literal.WellFormed) {ts : List Token}
    {rest : List Char} (ends : Json.EndsNumeral rest) (after : Spells ts rest) :
    Spells (literal.tree.tokens ++ ts) (literal.plain ++ rest) := by
  cases literal with
  | integer value long =>
    simpa [tree, Tree.ofInt, Tree.tokens, plain, Token.write] using
      Spells.token (t := .number (.ofInt value)) (Numeral.canonical_ofInt value) ends after
  | flag value =>
    have token := Spells.token (t := .bool value) trivial trivial after
    rw [tree, Tree.tokens]
    cases value <;> exact token
  | text content =>
    have written := writeText_of_plain wellFormed.plain
    simpa [tree, Tree.ofText, Tree.tokens, plain, print, Token.write, written] using
      Spells.token (t := .text (some content)) trivial trivial after

/-- The comma between what stands before a layout and the layout. -/
def commaBefore : Layout → List Token
  | .nil => []
  | _ => [.comma]

/-- The members of a layout in the form that trees have them. -/
def Layout.named (layout : Layout) : List (Option String × Tree) :=
  layout.members.map fun m => (some m.1, m.2)

theorem Layout.named_setting (indent : Nat) (key : String) (literal : Literal) (rest : Layout) :
    (setting indent key literal rest).named = (some key, literal.tree) :: rest.named := rfl

theorem Layout.named_group (indent : Nat) (key : String) (opening : Nat) (inner : Layout) (closing : Nat)
    (rest : Layout) :
    (group indent key opening inner closing rest).named = (some key, inner.tree) :: rest.named := rfl

theorem Layout.tokens_tree (layout : Layout) :
    layout.tree.tokens = .openBrace :: (Tree.memberTokens layout.named ++ [.closeBrace]) := by
  rw [tree, Tree.ofMembers, Tree.tokens]
  rfl

theorem memberTokens_cons (key : String) (value : Tree) (rest : Layout) :
    Tree.memberTokens ((some key, value) :: rest.named) =
      .text (some key) :: .colon ::
        (value.tokens ++ (commaBefore rest ++ Tree.memberTokens rest.named)) := by
  cases rest with
  | nil => simp [Layout.named, Layout.members, Tree.memberTokens, commaBefore]
  | setting => simp [Layout.named, Layout.members, Tree.memberTokens_cons_cons, commaBefore]
  | group => simp [Layout.named, Layout.members, Tree.memberTokens_cons_cons, commaBefore]

theorem spells_separator (layout : Layout) {ts : List Token} {cs : List Char} (after : Spells ts cs) :
    Spells (commaBefore layout ++ ts) (Stage.separator layout ++ '\n' :: cs) := by
  have line : Spells ts ('\n' :: cs) := spells_blank (by decide) after
  cases layout with
  | nil => exact line
  | setting => exact Spells.token (t := .comma) trivial trivial line
  | group => exact Spells.token (t := .comma) trivial trivial line

theorem endsNumeral_separator (layout : Layout) (cs : List Char) :
    Json.EndsNumeral (Stage.separator layout ++ '\n' :: cs) := by
  cases layout <;> exact Json.endsNumeral_cons _ (by decide)

/-- A key with the colon after it, indented by any number of spaces. -/
theorem spells_key {key : String} (isKey : IsKey key) (indent : Nat) {ts : List Token} {cs : List Char}
    (after : Spells ts cs) :
    Spells (.text (some key) :: .colon :: ts)
      (spaces indent ++ ('"' :: (key.toList ++ '"' :: ' ' :: ':' :: cs))) := by
  have colon : Spells (.colon :: ts) (' ' :: ':' :: cs) :=
    spells_blank (by decide) (Spells.token (t := .colon) trivial trivial after)
  have whole := Spells.token (t := .text (some key)) trivial trivial colon
  rw [Token.write, isKey.writeText] at whole
  simpa using spells_spaces indent whole

theorem spells_write {layout : Layout} (wellFormed : layout.WellFormed) {ts : List Token}
    {cs : List Char} (after : Spells ts cs) :
    Spells (Tree.memberTokens layout.named ++ ts) (layout.write .json ++ cs) := by
  induction layout generalizing ts cs with
  | nil => simpa [Layout.named, Layout.members, Tree.memberTokens, Layout.write] using after
  | setting indent key literal rest ih =>
    obtain ⟨isKey, -, isLiteral, others⟩ := wellFormed
    have stop := spells_separator rest (ih others after)
    have value := Literal.spells isLiteral (endsNumeral_separator rest _) stop
    have line := spells_key isKey indent (spells_blank (b := ' ') (by decide) value)
    rw [Layout.named_setting, memberTokens_cons]
    simpa [Layout.write, Stage.settingLine, Stage.json] using line
  | group indent key opening inner closing rest inside behind =>
    obtain ⟨isKey, -, within, others⟩ := wellFormed
    have stop := spells_separator rest (behind others after)
    have close := spells_spaces closing (Spells.token (t := .closeBrace) trivial trivial stop)
    have members := spells_blank (b := '\n') (by decide) (inside within close)
    have brace := spells_spaces opening (Spells.token (t := .openBrace) trivial trivial members)
    have lines := spells_blank (b := ' ') (by decide) (spells_blank (b := '\n') (by decide) brace)
    have header := spells_key isKey indent lines
    rw [Layout.named_group, memberTokens_cons, Layout.tokens_tree]
    simpa [Layout.write, Stage.headerLine, openingLine, Stage.closingLine, Stage.json, Token.write]
      using header

theorem spells_toJson {layout : Layout} (wellFormed : layout.WellFormed) :
    Spells layout.tree.tokens (toJson layout.print) := by
  have close := Spells.token (t := .closeBrace) trivial trivial (.nil (List.forall_mem_nil _))
  have members := spells_blank (b := '\n') (by decide) (spells_write wellFormed close)
  have whole := Spells.token (t := .openBrace) trivial trivial members
  rw [toJson_print wellFormed, Layout.tokens_tree]
  simpa [Layout.document, openingLine, spaces, Token.write] using whole

theorem parse?_toJson {layout : Layout} (wellFormed : layout.WellFormed) :
    Tree.parse? (toJson layout.print) = some layout.tree :=
  Tree.parse?_of_spells (spells_toJson wellFormed)

/-! ## Values -/

theorem settle?_ofInt {n : Int} (least : -9223372036854775808 ≤ n)
    (greatest : n ≤ 18446744073709551615) :
    (Numeral.ofInt n).settle? = some (Numeral.ofInt n) := by
  apply Numeral.settle?_of_isWord
  refine ⟨rfl, ?_⟩
  rw [Numeral.magnitude_ofInt]
  by_cases negative : n < 0
  · rw [if_pos (by simp [Numeral.ofInt, negative])]
    omega
  · rw [if_neg (by simp [Numeral.ofInt, negative])]
    omega

theorem Literal.plain?_tree {literal : Literal} (wellFormed : literal.WellFormed) (room : Nat) :
    literal.tree.plain? room = some literal.tree := by
  cases literal with
  | integer value long =>
    obtain ⟨least, greatest⟩ := wellFormed
    rw [tree, Tree.ofInt, Tree.plain?, settle?_ofInt least greatest, Option.map_some]
  | flag value => rw [tree, Tree.plain?]
  | text content => rw [tree, Tree.ofText, Tree.plain?, Option.map_some, Tree.ofText]

namespace Layout

theorem nodup_members {layout : Layout} (wellFormed : layout.WellFormed) :
    (layout.members.map Prod.fst).Nodup := by
  induction layout with
  | nil => exact .nil
  | setting indent key literal rest ih =>
    obtain ⟨-, new, -, others⟩ := wellFormed
    exact List.nodup_cons.2 ⟨new, ih others⟩
  | group indent key opening inner closing rest _ ih =>
    obtain ⟨-, new, -, others⟩ := wellFormed
    exact List.nodup_cons.2 ⟨new, ih others⟩

/-- A table of values that are the members but for their own order is the layout but for its order. -/
theorem reordered_table {layout : Layout} (wellFormed : layout.WellFormed)
    {entries : List (String × Tree)}
    (each : List.Forall₂ (fun m e => m.1 = e.1 ∧ m.2.Reordered e.2) layout.members entries) :
    layout.tree.Reordered (.ofMembers (Table.ofList entries).entries) := by
  have names : layout.members.map Prod.fst = entries.map Prod.fst := by
    rw [← List.forall₂_eq_eq_eq, List.forall₂_map_left_iff, List.forall₂_map_right_iff]
    exact each.imp fun _ _ same => same.1
  have distinct := nodup_members wellFormed
  have values : layout.tree.Reordered (.ofMembers entries) := by
    refine Tree.reordered_of_forall₂ ?_ []
    rw [List.forall₂_map_left_iff, List.forall₂_map_right_iff]
    exact each.imp fun _ _ same => ⟨congrArg some same.1, same.2⟩
  rw [names] at distinct
  refine values.trans (Tree.reordered_of_perm ((Table.perm_ofList distinct).symm.map _) ?_ [])
  have named :
      (entries.map fun m => (some m.1, m.2)).map Prod.fst = (entries.map Prod.fst).map some := by
    rw [List.map_map, List.map_map]
    rfl
  rw [named]
  exact List.Pairwise.map some (fun _ _ different same => different (Option.some.inj same)) distinct

theorem plain?_tree {layout : Layout} {room : Nat} (inside : room ≠ 0) {entries : List (String × Tree)}
    (read : Tree.plainMembers? (room - 1) layout.named = some entries) :
    layout.tree.plain? room = some (.ofMembers (Table.ofList entries).entries) := by
  rw [named] at read
  rw [tree, Tree.ofMembers, Tree.plain?, if_neg inside, read, Option.map_some]

theorem exists_plainMembers? {layout : Layout} (wellFormed : layout.WellFormed) {room : Nat}
    (shallow : layout.depth ≤ room) :
    ∃ entries, Tree.plainMembers? room layout.named = some entries ∧
      List.Forall₂ (fun m e => m.1 = e.1 ∧ m.2.Reordered e.2) layout.members entries := by
  induction layout generalizing room with
  | nil => exact ⟨[], by rw [named, members, List.map_nil, Tree.plainMembers?], .nil⟩
  | setting indent key literal rest ih =>
    obtain ⟨-, -, isLiteral, others⟩ := wellFormed
    obtain ⟨entries, read, each⟩ := ih others shallow
    refine ⟨(key, literal.tree) :: entries, ?_, .cons ⟨rfl, .refl⟩ each⟩
    rw [named_setting, Tree.plainMembers?, Literal.plain?_tree isLiteral, read]
    rfl
  | group indent key opening inner closing rest inside behind =>
    obtain ⟨-, -, within, others⟩ := wellFormed
    rw [depth] at shallow
    have innerShallow : inner.depth ≤ room - 1 := by omega
    have restShallow : rest.depth ≤ room := by omega
    obtain ⟨held, read, eachHeld⟩ := inside within innerShallow
    obtain ⟨entries, readRest, each⟩ := behind others restShallow
    have value := plain?_tree (by omega) read
    refine ⟨(key, .ofMembers (Table.ofList held).entries) :: entries, ?_,
      .cons ⟨rfl, reordered_table within eachHeld⟩ each⟩
    rw [named_group, Tree.plainMembers?, value, readRest]
    rfl

end Layout

theorem canonical_literal (literal : Literal) : literal.tree.Canonical := by
  cases literal with
  | integer value long => exact Tree.canonical_ofInt value
  | flag value => exact .bool value
  | text content => exact .text _

theorem Layout.canonical_members (layout : Layout) : ∀ m ∈ layout.members, m.2.Canonical := by
  induction layout with
  | nil => exact List.forall_mem_nil _
  | setting indent key literal rest ih => exact List.forall_mem_cons.2 ⟨canonical_literal literal, ih⟩
  | group indent key opening inner closing rest inside behind =>
    exact List.forall_mem_cons.2 ⟨Tree.canonical_ofMembers inside, behind⟩

/-- A printed layout is translated to a JSON text of exactly what it says: the text is read as the tree of
the layout, whose value is within the depth limit and has all members, ordered by name. So the
configuration of the layout is that of every JSON text of the same value, in particular of the tree
written as JSON. -/
theorem translation_preserves_meaning (layout : Layout) (wellFormed : layout.WellFormed)
    (shallow : layout.depth < Tree.depthLimit) :
    Tree.parse? (toJson layout.print) = some layout.tree ∧
    (∃ value, layout.tree.plain? Tree.depthLimit = some value ∧ layout.tree.Reordered value) ∧
    (∀ json other, Tree.parse? json = some other → layout.tree.Reordered other →
      Config.ofGroupText layout.print = Config.ofJson json) ∧
    Config.ofGroupText layout.print = Config.ofJson layout.tree.compact := by
  have parsed := parse?_toJson wellFormed
  refine ⟨parsed, ?_, fun json other read reordered => ?_, ?_⟩
  · obtain ⟨entries, read, each⟩ := layout.exists_plainMembers? wellFormed (Nat.le_sub_one_of_lt shallow)
    exact ⟨_, Layout.plain?_tree (by decide) read, Layout.reordered_table wellFormed each⟩
  · exact Config.ofJson_of_reordered parsed read reordered
  · have again := (Tree.canonical_ofMembers layout.canonical_members).parse?_compact
    exact Config.ofJson_of_reordered parsed again .refl

end GroupText

namespace Sample

open GroupText (Layout)

/-- A cache of the sample as a group. -/
def cacheLayout (name : String) (instances : Int) (rest : Layout) : Layout :=
  .group 4 name 4
    (.group 6 "array" 6 (.setting 8 "ways" (.integer 8 false) .nil) 6 <|
      .setting 6 "caches" (.integer instances false) <| .setting 6 "latency" (.integer 4 false) <|
      .setting 6 "size" (.integer 32768 true) .nil) 4 rest

/-- The sample as groups, among other settings. -/
def layout : Layout :=
  .group 0 "sim" 0
    (.setting 2 "phaseLength" (.integer 10000 true) <|
      .setting 2 "pin-cmd*" (.text "a =b, c: d;  9 L") <|
      .setting 2 "skip" (.integer (-1) true) <| .setting 2 "stats" (.flag false) .nil) 0 <|
  .group 0 "sys" 0
    (.setting 2 "frequency" (.integer 2000 false) <| .setting 2 "lineSize" (.integer 64 false) <|
      .group 2 "caches" 2
        (cacheLayout "l1d" 1 <| cacheLayout "l1i" 2 <| cacheLayout "l2" 1 <|
          cacheLayout "l3" 1 .nil) 2 <|
      .group 2 "cores" 2
        (.group 4 "westmere" 4
          (.setting 6 "cores" (.integer 2 false) <| .setting 6 "type" (.text "OOO") .nil) 4 .nil) 2 <|
      .group 2 "mem" 2 .nil 2 .nil) 0 .nil

theorem layout_wellFormed : layout.WellFormed := by
  decide +kernel

theorem ofTree?_layout :
    Config.Raw.ofTree? layout.tree =
      some (rawConfig [("l1d", 1), ("l1i", 2), ("l2", 1), ("l3", 1)]) := by
  rfl

theorem ofJson_layout : Config.ofJson layout.tree.compact = .ok config := by
  have parsed := (Tree.canonical_ofMembers layout.canonical_members).parse?_compact
  rw [← Layout.tree] at parsed
  rw [Config.ofJson, Config.Raw.parse?, parsed, Option.bind_some, ofTree?_layout]
  exact ofRaw_rawConfig

/-- The configuration of the sample is that of its text. -/
theorem ofGroupText_layout : Config.ofGroupText layout.print = .ok config := by
  have parsed := GroupText.parse?_toJson layout_wellFormed
  have again := (Tree.canonical_ofMembers layout.canonical_members).parse?_compact
  rw [Config.ofGroupText, Config.ofJson_of_reordered parsed again .refl]
  exact ofJson_layout

end Sample

/-- A text with strings that look like settings, with suffixes and with an empty group. -/
theorem GroupText.translation_preserves_meaning_sample :
    Tree.parse? (toJson Sample.layout.print) = some Sample.layout.tree ∧
    (∃ value, Sample.layout.tree.plain? 127 = some value ∧ Sample.layout.tree.Reordered value) ∧
    Config.ofGroupText Sample.layout.print = .ok Sample.config := by
  obtain ⟨parsed, value, -, same⟩ :=
    translation_preserves_meaning Sample.layout Sample.layout_wellFormed (by decide +kernel)
  exact ⟨parsed, value, same.trans Sample.ofJson_layout⟩

end IntervalStats
