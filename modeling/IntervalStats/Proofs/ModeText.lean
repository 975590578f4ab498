import IntervalStats.Proofs.ModeCompleteness
import IntervalStats.Proofs.SignedWord
import IntervalStats.Proofs.TrimmedPieces

/-!
# Mode sets in text

A text is a mode set by its grammar and by nothing else (`ModeSet.parse_grammar`): one of two texts that
stand for all modes, or a list with commas whose items are integers that a word holds. The first item that is
no such integer gives the error. The text of a mode set follows the grammar and denotes the same modes, so it
is read back (`ModeSet.text_read_back`).
-/

namespace IntervalStats

/-- The item denotes an integer that a word holds. -/
def IsMode (item : List Char) : Prop :=
  ∃ n, Denotes item n ∧ FitsWord n

theorem isMode_iff {item : List Char} : IsMode item ↔ ∃ m, readWord item = .ok m := by
  constructor
  · intro ⟨n, denotes, fits⟩
    refine ⟨Int64.ofInt n, readWord_eq_ok_iff.2 ?_⟩
    rwa [toInt_ofInt_of_fitsWord fits]
  · intro ⟨m, read⟩
    exact ⟨m.toInt, readWord_eq_ok_iff.1 read, fitsWord_toInt m⟩

/-- A text denotes one word at most. -/
theorem Denotes.eq_word {cs : List Char} {m m' : Int64} (left : Denotes cs m.toInt)
    (right : Denotes cs m'.toInt) : m = m' :=
  Except.ok.inj ((readWord_eq_ok_iff.2 left).symm.trans (readWord_eq_ok_iff.2 right))

theorem Denotes.visible {cs : List Char} {n : Int} (denotes : Denotes cs n) :
    ∀ c ∈ cs, Text.isBlank c = false ∧ c ≠ ',' := by
  intro c member
  have range : 43 ≤ c.toNat ∧ c.toNat ≤ 57 ∧ c ≠ ',' := by
    rcases mem_of_denotes denotes member with rfl | rfl | digit
    · decide
    · decide
    · have bounds := Char.isDigit_iff_toNat.1 digit
      refine ⟨Nat.le_trans (by decide) bounds.1, bounds.2, ?_⟩
      rintro rfl
      cases digit
  have outside : ∀ r ∈ Text.blankRanges, r.2 < 43 ∨ 57 < r.1 := by decide
  refine ⟨?_, range.2.2⟩
  rw [Text.isBlank, List.any_eq_false]
  intro r listed
  have := outside r listed
  simp only [Bool.and_eq_true, decide_eq_true_eq]
  omega

theorem Denotes.ne_nil {cs : List Char} {n : Int} (denotes : Denotes cs n) : cs ≠ [] := by
  obtain ⟨sign, digits, rfl, some, -⟩ := denotes
  simp [some]

/-- Modes are told apart by what they hold. -/
theorem Modes.eq_of_mem_iff {left right : Modes} (same : ∀ m, m ∈ left.values ↔ m ∈ right.values) :
    left = right := by
  have nodup (modes : Modes) : modes.values.Nodup := by
    refine List.Pairwise.imp ?_ modes.ascending
    rintro a b less rfl
    exact Int64.lt_irrefl less
  have perm := (List.perm_ext_iff_of_nodup (nodup left) (nodup right)).2 same
  refine Modes.ext (List.Perm.eq_of_pairwise ?_ left.ascending right.ascending perm)
  intro a b _ _ less greater
  exact absurd (Int64.lt_trans less greater) Int64.lt_irrefl

namespace ModeSet

variable {text : String} {modes : Modes} {e : IntegerError}

/-- The text stands for all modes. -/
def MeansAll (text : String) : Prop :=
  Text.trim text.toList = "*".toList ∨ Text.trim text.toList = "all".toList

theorem parse_of_meansAll (means : MeansAll text) : parse text = .ok all :=
  if_pos means

theorem parse_of_not_meansAll (other : ¬MeansAll text) :
    parse text = ((Text.items ',' text.toList).mapM readWord).map fun values => only (.ofList values) := by
  rw [← Text.items_trim (by decide)]
  exact if_neg other

theorem parse_eq_all_iff : parse text = .ok all ↔ MeansAll text := by
  constructor
  · intro parsed
    by_contra other
    rw [parse_of_not_meansAll other] at parsed
    obtain ⟨values, -, impossible⟩ := map_eq_ok_iff.1 parsed
    cases impossible
  · exact parse_of_meansAll

theorem parse_eq_only_iff (other : ¬MeansAll text) :
    parse text = .ok (only modes) ↔
      (∀ item ∈ Text.items ',' text.toList, IsMode item) ∧
      ∀ m, m ∈ modes.values ↔ ∃ item ∈ Text.items ',' text.toList, Denotes item m.toInt := by
  rw [parse_of_not_meansAll other]
  generalize Text.items ',' text.toList = items
  -- the words of a list of items are those that one of them denotes
  have words {values : List Int64} (each : List.Forall₂ (fun item m => readWord item = .ok m) items values)
      (m : Int64) : m ∈ values ↔ ∃ item ∈ items, Denotes item m.toInt := by
    constructor
    · intro member
      obtain ⟨item, listed, read⟩ := exists_mem_of_forall₂ each.flip member
      exact ⟨item, listed, readWord_eq_ok_iff.1 read⟩
    · intro ⟨item, listed, denotes⟩
      obtain ⟨m', member, read⟩ := exists_mem_of_forall₂ each listed
      rwa [denotes.eq_word (readWord_eq_ok_iff.1 read)]
  constructor
  · intro parsed
    obtain ⟨values, read, same⟩ := map_eq_ok_iff.1 parsed
    cases same
    have each := mapM_eq_ok_iff.1 read
    refine ⟨fun item listed => ?_, fun m => Modes.mem_ofList.trans (words each m)⟩
    obtain ⟨m, -, read⟩ := exists_mem_of_forall₂ each listed
    exact isMode_iff.2 ⟨m, read⟩
  · intro ⟨good, same⟩
    cases read : items.mapM readWord with
    | error e =>
      obtain ⟨before, item, after, rfl, -, failed⟩ := mapM_eq_error_iff.1 read
      obtain ⟨m, read⟩ := isMode_iff.1 (good item (by simp))
      cases failed.symm.trans read
    | ok values =>
      have equal : Modes.ofList values = modes := by
        apply Modes.eq_of_mem_iff
        intro m
        rw [Modes.mem_ofList, words (mapM_eq_ok_iff.1 read), same]
      rw [← equal]
      rfl

/-- The first item that is no mode decides the error. -/
theorem parse_eq_error_iff (other : ¬MeansAll text) :
    parse text = .error e ↔
      ∃ before item after, Text.items ',' text.toList = before ++ item :: after ∧
        (∀ i ∈ before, IsMode i) ∧ ¬IsMode item ∧ Refuses item e := by
  have failed_iff (item : List Char) : readWord item = .error e ↔ ¬IsMode item ∧ Refuses item e := by
    rw [← readWord_eq_error_iff, isMode_iff]
    constructor
    · intro failed
      refine ⟨fun ⟨m, read⟩ => ?_, failed⟩
      cases failed.symm.trans read
    · exact And.right
  have stops : parse text = .error e ↔ (Text.items ',' text.toList).mapM readWord = .error e := by
    rw [parse_of_not_meansAll other]
    exact map_eq_error_iff
  simp only [stops, mapM_eq_error_iff, isMode_iff, failed_iff]

/-- A text is read by its grammar: it stands for all modes, or the items between its commas are read, which
all have to be integers in range, and are the modes; or the first other item gives the error. -/
theorem parse_grammar (text : String) :
    (parse text = .ok all ↔
      Text.trim text.toList = "*".toList ∨ Text.trim text.toList = "all".toList) ∧
    (¬(Text.trim text.toList = "*".toList ∨ Text.trim text.toList = "all".toList) →
      (∀ modes, parse text = .ok (only modes) ↔
        (∀ item ∈ Text.items ',' text.toList, IsMode item) ∧
        ∀ m, m ∈ modes.values ↔ ∃ item ∈ Text.items ',' text.toList, Denotes item m.toInt) ∧
      ∀ e, parse text = .error e ↔
        ∃ before item after, Text.items ',' text.toList = before ++ item :: after ∧
          (∀ i ∈ before, IsMode i) ∧ ¬IsMode item ∧ Refuses item e) := by
  refine ⟨parse_eq_all_iff, fun other => ⟨fun modes => ?_, fun e => ?_⟩⟩
  · exact parse_eq_only_iff other
  · exact parse_eq_error_iff other

/-- Blanks, empty items, a sign and zeros do not matter. An item that has left the range is refused for
that, whatever comes later in it. -/
theorem parse_grammar_sample :
    parse "\u3000*\n" = .ok all ∧
    parse " +7,, -0008\t,7" = .ok (only (.ofList [7, -8])) ∧
    parse "3,-9223372036854775809x,y" = .error .tooSmall := by
  refine ⟨(parse_grammar _).1.2 (.inl (by decide)), ?_, ?_⟩
  · have items : Text.items ',' " +7,, -0008\t,7".toList = ["+7".toList, "-0008".toList, "7".toList] := by
      decide
    have plus : Denotes "+7".toList (7 : Int64).toInt :=
      ⟨.plus, ['7'], rfl, by decide, List.all_eq_true.1 (by decide), rfl⟩
    have minus : Denotes "-0008".toList (-8 : Int64).toInt :=
      ⟨.minus, "0008".toList, rfl, by decide, List.all_eq_true.1 (by decide), rfl⟩
    have bare : Denotes "7".toList (7 : Int64).toInt :=
      ⟨.bare, ['7'], rfl, by decide, List.all_eq_true.1 (by decide), rfl⟩
    refine (((parse_grammar _).2 (by decide)).1 _).2 ⟨?_, fun m => ?_⟩
    · simp only [items, List.forall_mem_cons]
      exact ⟨⟨_, plus, fitsWord_toInt _⟩, ⟨_, minus, fitsWord_toInt _⟩, ⟨_, bare, fitsWord_toInt _⟩,
        List.forall_mem_nil _⟩
    · rw [items, Modes.mem_ofList]
      simp only [List.mem_cons, List.not_mem_nil, or_false, exists_eq_or_imp, exists_eq_left]
      constructor
      · rintro (rfl | rfl)
        · exact .inl plus
        · exact .inr (.inl minus)
      · rintro (denotes | denotes | denotes)
        · exact .inl (denotes.eq_word plus)
        · exact .inr (denotes.eq_word minus)
        · exact .inl (denotes.eq_word bare)
  · have three : IsMode ['3'] :=
      ⟨3, ⟨.bare, ['3'], rfl, by decide, List.all_eq_true.1 (by decide), rfl⟩, by decide⟩
    have start : Denotes "-9223372036854775809".toList (-9223372036854775809) :=
      ⟨.minus, "9223372036854775809".toList, rfl, by decide, List.all_eq_true.1 (by decide), rfl⟩
    have refused : Refuses "-9223372036854775809x".toList .tooSmall :=
      .tooSmall ⟨['x'], rfl⟩ start (by decide)
    refine (((parse_grammar _).2 (by decide)).2 _).2 ⟨[['3']], _, [['y']], by decide, ?_, ?_, refused⟩
    · simpa using three
    · intro isMode
      obtain ⟨m, read⟩ := isMode_iff.1 isMode
      cases (readWord_eq_error_iff.2 refused).symm.trans read

/-! ## The text of a mode set -/

/-- Neither text for all modes is a list of integers. -/
theorem not_meansAll_of_items (good : ∀ item ∈ Text.items ',' text.toList, ∃ n, Denotes item n) :
    ¬MeansAll text := by
  have letter {item : List Char} {c : Char} (listed : item ∈ Text.items ',' text.toList)
      (member : c ∈ item) : c = '+' ∨ c = '-' ∨ c.isDigit = true := by
    obtain ⟨n, denotes⟩ := good item listed
    exact mem_of_denotes denotes member
  have same : Text.items ',' (Text.trim text.toList) = Text.items ',' text.toList :=
    Text.items_trim (by decide) text.toList
  rintro (star | word)
  · have listed : ['*'] ∈ Text.items ',' text.toList := by
      rw [← same, star]
      decide
    have := letter listed (List.mem_singleton_self _)
    simp at this
  · have listed : ['a', 'l', 'l'] ∈ Text.items ',' text.toList := by
      rw [← same, word]
      decide
    have := letter listed (List.mem_cons_self ..)
    simp at this

theorem items_text (modes : Modes) :
    Text.items ',' (only modes).text.toList = modes.values.map fun m => (toString m.toInt).toList := by
  have texts : (only modes).text.toList =
      [','].intercalate (modes.values.map fun m => (toString m.toInt).toList) := by
    show (",".intercalate (modes.values.map fun m => toString m.toInt)).toList = _
    rw [String.toList_intercalate, List.map_map]
    rfl
  have denoting : ∀ part ∈ modes.values.map fun m => (toString m.toInt).toList,
      ∃ n, Denotes part n := by
    intro part member
    obtain ⟨m, -, rfl⟩ := List.mem_map.1 member
    exact ⟨m.toInt, denotes_toString m.toInt⟩
  rw [texts]
  apply Text.items_intercalate
  · intro part member
    obtain ⟨n, denotes⟩ := denoting part member
    exact denotes.ne_nil
  · intro part member comma
    obtain ⟨n, denotes⟩ := denoting part member
    exact (denotes.visible _ comma).2 rfl
  · intro part member c inside
    obtain ⟨n, denotes⟩ := denoting part member
    exact (denotes.visible c inside).1

theorem parse_text (set : ModeSet) : parse set.text = .ok set := by
  cases set with
  | all => exact parse_of_meansAll (.inl rfl)
  | only modes =>
    have items := items_text modes
    have denoting : ∀ item ∈ Text.items ',' (only modes).text.toList,
        ∃ m ∈ modes.values, Denotes item m.toInt := by
      intro item listed
      rw [items] at listed
      obtain ⟨m, member, rfl⟩ := List.mem_map.1 listed
      exact ⟨m, member, denotes_toString m.toInt⟩
    have other : ¬MeansAll (only modes).text := by
      apply not_meansAll_of_items
      intro item listed
      obtain ⟨m, -, denotes⟩ := denoting item listed
      exact ⟨m.toInt, denotes⟩
    refine (parse_eq_only_iff other).2 ⟨?_, ?_⟩
    · intro item listed
      obtain ⟨m, -, denotes⟩ := denoting item listed
      exact ⟨m.toInt, denotes, fitsWord_toInt m⟩
    · intro m
      constructor
      · intro member
        refine ⟨(toString m.toInt).toList, ?_, denotes_toString m.toInt⟩
        rw [items]
        exact List.mem_map_of_mem member
      · intro ⟨item, listed, denotes⟩
        obtain ⟨m', member, denotes'⟩ := denoting item listed
        rwa [denotes.eq_word denotes']

/-- Every mode set is read back from its text. So the text of what was read from any text is read as the
same set, with the same modes. -/
theorem text_read_back (set : ModeSet) :
    parse set.text = .ok set ∧
    ∀ text, parse text = .ok set →
      parse set.text = parse text ∧
      ∀ again, parse set.text = .ok again → ∀ mode, again.contains mode = set.contains mode := by
  have read := parse_text set
  refine ⟨read, fun text parsed => ⟨read.trans parsed.symm, fun again reread mode => ?_⟩⟩
  cases read.symm.trans reread
  rfl

/-- The least and the greatest mode, and no modes at all. -/
theorem text_read_back_extremes :
    parse "-9223372036854775808,0,9223372036854775807" =
      parse " 0,9223372036854775807 ,-9223372036854775808" ∧
    parse "" = .ok (only .empty) := by
  obtain ⟨-, reread⟩ := text_read_back (only (.ofList [0, 9223372036854775807, -9223372036854775808]))
  exact ⟨(reread " 0,9223372036854775807 ,-9223372036854775808" rfl).1, (text_read_back (only .empty)).1⟩

end ModeSet

end IntervalStats
