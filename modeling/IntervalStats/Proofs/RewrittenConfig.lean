import IntervalStats.Config.Basic
import IntervalStats.Proofs.SettledValue
import IntervalStats.Proofs.TextOrder

/-!
# Rewritten configurations

A configuration as given may be written in many ways: records as arrays, fields that nobody asks for,
repeated names, any order, any escapes. What is kept of it is written in one way, and that text reads back
as what was kept (`Config.Raw.parse?_render`), if the numbers among the caches are integers of a word. So
rewriting a text twice is rewriting it once, and the rewritten text means what the first one meant
(`Config.Raw.rewriting_fixed`).
-/

namespace IntervalStats.Config

open Json (Tree)

namespace Raw

variable {t : Tree} {raw : Raw}

/-! ## Fields -/

/-- The records of the tree have these values for the fields of a configuration: the phase length, the
frequency, the line size, the core groups and the caches. -/
inductive HasFields (t : Tree) : Tree → Tree → Tree → Tree → Tree → Prop where
  | intro {sim sys phaseLength frequency lineSize cores caches : Tree}
      (top : t.record? ["sim", "sys"] = some [sim, sys])
      (simulation : sim.record? ["phaseLength"] = some [phaseLength])
      (system : sys.record? ["frequency", "lineSize", "cores", "caches"] =
        some [frequency, lineSize, cores, caches]) :
      HasFields t phaseLength frequency lineSize cores caches

theorem ofTree?_eq_some_iff :
    ofTree? t = some raw ↔
      ∃ phaseLength frequency lineSize cores caches,
        HasFields t phaseLength frequency lineSize cores caches ∧
        phaseLength.unsigned? = some raw.phaseLength ∧ frequency.unsigned? = some raw.frequency ∧
        lineSize.unsigned? = some raw.lineSize ∧ cores.table? RawCoreGroup.ofTree? = some raw.cores ∧
        caches.table? (Tree.plain? (Tree.depthLimit - cacheDepth)) = some raw.caches := by
  constructor
  · intro read
    simp only [ofTree?, Option.bind_eq_bind, Option.bind_eq_some_iff] at read
    obtain ⟨_, top, read⟩ := read
    split at read
    · obtain ⟨_, simulation, read⟩ := Option.bind_eq_some_iff.1 read
      split at read
      · obtain ⟨_, system, read⟩ := Option.bind_eq_some_iff.1 read
        split at read
        · simp only [Option.bind_eq_some_iff, Option.pure_def, Option.some.injEq] at read
          obtain ⟨_, gotPhase, _, gotFrequency, _, gotLine, _, gotCores, _, gotCaches, rfl⟩ := read
          exact ⟨_, _, _, _, _, .intro top simulation system, gotPhase, gotFrequency, gotLine, gotCores,
            gotCaches⟩
        · cases read
      · cases read
    · cases read
  · intro ⟨_, _, _, _, _, fields, gotPhase, gotFrequency, gotLine, gotCores, gotCaches⟩
    obtain ⟨top, simulation, system⟩ := fields
    simp only [ofTree?, top, simulation, system, gotPhase, gotFrequency, gotLine, gotCores, gotCaches,
      Option.bind_eq_bind, Option.bind_some, Option.pure_def]

end Raw

theorem RawCoreGroup.ofTree?_toTree (group : RawCoreGroup) : ofTree? group.toTree = some group := by
  have fields : group.toTree.record? ["cores", "type"] =
      some [.ofInt group.cores.toNat, .ofText group.kind] :=
    Tree.record?_ofMembers [("cores", _), ("type", _)] (by simp)
  have cores : (Tree.ofInt group.cores.toNat).unsigned? = some group.cores :=
    Numeral.unsigned?_ofInt group.cores
  rw [ofTree?, fields]
  simp [cores, Tree.ofText, Tree.text?]

theorem RawCoreGroup.canonical_toTree (group : RawCoreGroup) : group.toTree.Canonical := by
  apply Tree.canonical_ofMembers
  simp only [List.forall_mem_cons]
  exact ⟨Tree.canonical_ofInt _, .text _, List.forall_mem_nil _⟩

namespace Raw

variable {raw : Raw}

/-- The values among the caches are in settled form, and their integers in the form in which integers are
written. -/
def Settled (raw : Raw) : Prop :=
  ∀ e ∈ raw.caches.entries,
    e.2.plain? (Tree.depthLimit - cacheDepth) = some e.2 ∧ e.2.Canonical

theorem hasFields_toTree (raw : Raw) :
    HasFields raw.toTree (.ofInt raw.phaseLength.toNat) (.ofInt raw.frequency.toNat)
      (.ofInt raw.lineSize.toNat) (.ofMembers (raw.cores.entries.map fun e => (e.1, e.2.toTree)))
      (.ofMembers raw.caches.entries) :=
  .intro (Tree.record?_ofMembers [("sim", _), ("sys", _)] (by simp))
    (Tree.record?_ofMembers [("phaseLength", _)] (by simp))
    (Tree.record?_ofMembers [("frequency", _), ("lineSize", _), ("cores", _), ("caches", _)] (by simp))

theorem ofTree?_toTree (settled : raw.Settled) : ofTree? raw.toTree = some raw := by
  have caches : (Tree.ofMembers (raw.caches.entries.map fun e => (e.1, id e.2))).table?
      (Tree.plain? (Tree.depthLimit - cacheDepth)) = some raw.caches :=
    Tree.table?_ofMembers fun e listed => (settled e listed).1
  have same : (raw.caches.entries.map fun e => (e.1, id e.2)) = raw.caches.entries := List.map_id _
  rw [same] at caches
  exact ofTree?_eq_some_iff.2 ⟨_, _, _, _, _, hasFields_toTree raw, Numeral.unsigned?_ofInt _,
    Numeral.unsigned?_ofInt _, Numeral.unsigned?_ofInt _,
    Tree.table?_ofMembers fun e _ => e.2.ofTree?_toTree, caches⟩

theorem canonical_toTree (settled : raw.Settled) : raw.toTree.Canonical := by
  apply Tree.canonical_ofMembers
  simp only [List.forall_mem_cons]
  refine ⟨?_, ?_, List.forall_mem_nil _⟩
  · apply Tree.canonical_ofMembers
    simp only [List.forall_mem_cons]
    exact ⟨Tree.canonical_ofInt _, List.forall_mem_nil _⟩
  · apply Tree.canonical_ofMembers
    simp only [List.forall_mem_cons]
    refine ⟨Tree.canonical_ofInt _, Tree.canonical_ofInt _, ?_, ?_, List.forall_mem_nil _⟩
    · apply Tree.canonical_ofMembers
      rw [List.forall_mem_map]
      exact fun e _ => e.2.canonical_toTree
    · exact Tree.canonical_ofMembers fun e listed => (settled e listed).2

/-- What is kept of a configuration is read back from its own text. -/
theorem parse?_render (settled : raw.Settled) : parse? raw.render = some raw := by
  rw [parse?, render, (canonical_toTree settled).parse?_compact, Option.bind_some, ofTree?_toTree settled]

/-! ## Rewriting -/

/-- The text gives this value under a name among the caches, whether it is kept or not. -/
def GivesCache (json : List Char) (value : Tree) : Prop :=
  ∃ t phaseLength frequency lineSize cores caches members name,
    Tree.parse? json = some t ∧ HasFields t phaseLength frequency lineSize cores caches ∧
    caches.members? = some members ∧ (name, value) ∈ members

theorem HasFields.hasNumber {phaseLength frequency lineSize cores caches : Tree} {n : Numeral}
    (fields : HasFields t phaseLength frequency lineSize cores caches) (has : caches.HasNumber n) :
    t.HasNumber n := by
  obtain ⟨top, -, system⟩ := fields
  have within := Tree.HasNumber.of_record? system (by simp) has
  exact .of_record? top (by simp) within

theorem settled_of_parse? {json : List Char} (reads : parse? json = some raw)
    (words : ∀ value, GivesCache json value → ∀ n, value.HasNumber n → n.IsWord) : raw.Settled := by
  obtain ⟨t, parsed, read⟩ := Option.bind_eq_some_iff.1 reads
  obtain ⟨_, _, _, _, caches, fields, -, -, -, -, read⟩ := ofTree?_eq_some_iff.1 read
  obtain ⟨members, given, each⟩ := Tree.exists_of_table? read
  intro e listed
  obtain ⟨m, member, settles⟩ := each e listed
  have gives : GivesCache json m.2 := ⟨t, _, _, _, _, caches, members, m.1, parsed, fields, given, member⟩
  obtain ⟨again, numbers⟩ := Tree.plain?_of_plain? settles (words m.2 gives)
  refine ⟨again, Tree.canonical_of_hasNumber fun n has => ?_⟩
  have inText : t.HasNumber n := fields.hasNumber (.of_members? given member (numbers n has))
  exact Tree.canonical_of_parse? parsed inText (words m.2 gives n (numbers n has)).1

/-- If a text reads as a configuration and the numbers of its values among the caches are integers of a
word, then what is written for it reads as the same configuration again. Writing that once more gives the
same text, and checking either text has the same outcome. -/
theorem rewriting_fixed {json : List Char} (reads : parse? json = some raw)
    (words : ∀ value, GivesCache json value → ∀ n, value.HasNumber n → n.IsWord) :
    parse? raw.render = some raw ∧ (parse? raw.render).map render = some raw.render ∧
      ofJson raw.render = ofJson json := by
  have again := parse?_render (settled_of_parse? reads words)
  refine ⟨again, ?_, ?_⟩
  · rw [again, Option.map_some]
  · rw [ofJson, ofJson, again, reads]

end Raw

end IntervalStats.Config

namespace IntervalStats

open Json (Tree Begins)

namespace Sample

/-- A configuration with records as arrays, a field that is skipped, a cache that is given twice, and names
in disorder. -/
def untidyText : List Char :=
  "[[10000], \x7b\"note\": [1.5e3, \"\\ud800\"], \"caches\": \x7b\"l2\": null, ".toList
    ++ "\"l1d\": [[8], 2, 4, 32768], \"l2\": \x7b\"b\": \x7b\"y\": -7, ".toList
    ++ "\"x\": [18446744073709551615]\x7d, \"a\": \"\\u0041\\n\"\x7d\x7d, ".toList
    ++ "\"lineSize\": 64, \"frequency\": 2000, \"cores\": \x7b\"w\": [2, \"OOO\"]\x7d\x7d]".toList

def untidyCaches : List (String × Tree) :=
  [("l2", .null), ("l1d", .array [.array [.ofInt 8], .ofInt 2, .ofInt 4, .ofInt 32768]),
    ("l2", .ofMembers [("b", .ofMembers [("y", .ofInt (-7)), ("x", .array [.ofInt 18446744073709551615])]),
      ("a", .ofText "A\n")])]

def untidyTree : Tree :=
  .array [.array [.ofInt 10000], .ofMembers [
    ("note", .array [.number ⟨false, ['1'], some ['5'], some (.bare, ['3'])⟩, .text none]),
    ("caches", .ofMembers untidyCaches), ("lineSize", .ofInt 64), ("frequency", .ofInt 2000),
    ("cores", .ofMembers [("w", .array [.ofInt 2, .ofText "OOO"])])]]

/-- What is kept of the configuration. -/
def untidyRaw : Config.Raw where
  phaseLength := 10000
  frequency := 2000
  lineSize := 64
  cores := .ofList [("w", ⟨2, "OOO"⟩)]
  caches := .ofList [("l1d", .array [.array [.ofInt 8], .ofInt 2, .ofInt 4, .ofInt 32768]),
    ("l2", .ofMembers [("a", .ofText "A\n"),
      ("b", .ofMembers [("x", .array [.ofInt 18446744073709551615]), ("y", .ofInt (-7))])])]

def tidyText : List Char :=
  "\x7b\"sim\":\x7b\"phaseLength\":10000\x7d,\"sys\":\x7b\"frequency\":2000,".toList
    ++ "\"lineSize\":64,\"cores\":\x7b\"w\":\x7b\"cores\":2,\"type\":\"OOO\"\x7d\x7d,".toList
    ++ "\"caches\":\x7b\"l1d\":[[8],2,4,32768],\"l2\":\x7b\"a\":\"A\\n\",".toList
    ++ "\"b\":\x7b\"x\":[18446744073709551615],\"y\":-7\x7d\x7d\x7d\x7d\x7d".toList

theorem parse?_untidyText : Tree.parse? untidyText = some untidyTree := by
  have begins : Begins untidyText untidyTree.tokens [] := by decide +kernel
  exact Tree.parse?_of_begins begins

theorem parse?_untidy : Config.Raw.parse? untidyText = some untidyRaw := by
  rw [Config.Raw.parse?, parse?_untidyText]
  rfl

theorem mem_untidyCaches {value : Tree} (gives : Config.Raw.GivesCache untidyText value) :
    ∃ m ∈ untidyCaches, m.2 = value := by
  obtain ⟨t, _, _, _, _, caches, members, name, parsed, fields, given, member⟩ := gives
  cases parsed.symm.trans parse?_untidyText
  obtain ⟨top, -, system⟩ := fields
  cases top
  cases system
  cases given
  exact ⟨_, member, rfl⟩

def isWordIfNumber : Json.Token → Bool
  | .number n => n.IsWord
  | _ => true

theorem untidy_words {value : Tree} (gives : Config.Raw.GivesCache untidyText value) {n : Numeral}
    (has : value.HasNumber n) : n.IsWord := by
  have checked : untidyCaches.all (fun m => m.2.tokens.all isWordIfNumber) = true := by decide +kernel
  obtain ⟨m, member, rfl⟩ := mem_untidyCaches gives
  have tokens := List.all_eq_true.1 checked m member
  exact of_decide_eq_true (List.all_eq_true.1 tokens _ has.mem_tokens)

end Sample

/-- The second cache has no four fields, and both texts are refused for it. -/
theorem Config.Raw.rewriting_fixed_untidy :
    parse? Sample.untidyText = some Sample.untidyRaw ∧ Sample.untidyRaw.render = Sample.tidyText ∧
    (parse? Sample.tidyText).map render = some Sample.tidyText ∧
    ofJson Sample.tidyText = ofJson Sample.untidyText ∧
    ofJson Sample.untidyText = .error ⟨.malformedJson, ["Unable to parse cache \"l2\""]⟩ := by
  have written : Sample.untidyRaw.render = Sample.tidyText := by decide +kernel
  obtain ⟨-, twice, same⟩ :=
    rewriting_fixed Sample.parse?_untidy fun _ gives _ has => Sample.untidy_words gives has
  rw [written] at twice same
  refine ⟨Sample.parse?_untidy, written, twice, same, ?_⟩
  rw [ofJson, Sample.parse?_untidy]
  rfl

end IntervalStats
