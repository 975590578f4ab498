import IntervalStats.Proofs.JsonText

/-!
# Trees of texts

The other direction of `Tree.parse?_of_spells`: a text that reads as a tree holds the tokens of that tree,
in order and nothing else (`Tree.scans_of_parse?`). `Reader.tokens` gives the tokens that brought a reader
to where it is, so each step adds the token that it takes, and a reader at the end of a value has taken
the tokens of that value.
-/

namespace IntervalStats.Json

/-- The tokens that are read from the text, one after the other. -/
inductive Scans : List Char → List Token → Prop where
  | nil {cs : List Char} (blank : (cs.dropWhile isSpace).isEmpty = true) : Scans cs []
  | cons {cs rest : List Char} {t : Token} {ts : List Token}
      (read : Token.read? (cs.dropWhile isSpace) = some (t, rest)) (others : Scans rest ts) :
      Scans cs (t :: ts)

/-- A run of the reader takes the tokens of its text in turn. -/
theorem Reader.exists_scans {r last : Reader} {cs : List Char} (ran : r.run? cs = some last) :
    ∃ ts, Scans cs ts ∧ ts.foldlM Reader.step r = some last := by
  fun_induction Reader.run? r cs with
  | case1 r cs blank =>
    exact ⟨[], .nil blank, ran⟩
  | case2 => cases ran
  | case3 => cases ran
  | case4 r cs _ t rest read next stepped ih =>
    obtain ⟨ts, scanned, taken⟩ := ih ran
    refine ⟨t :: ts, .cons read scanned, ?_⟩
    rw [List.foldlM_cons, stepped]
    exact taken

/-! ## Tokens of a reader -/

namespace Tree

/-- The tokens of finished items of an array, each with the comma after it. -/
def itemsTaken (items : List Tree) : List Token :=
  items.flatMap fun item => item.tokens ++ [.comma]

/-- The tokens of finished members of an object, each with the comma after it. -/
def membersTaken (members : List (Option String × Tree)) : List Token :=
  members.flatMap fun m => .text m.1 :: .colon :: m.2.tokens ++ [.comma]

theorem itemTokens_concat (items : List Tree) (last : Tree) :
    itemTokens (items ++ [last]) = itemsTaken items ++ last.tokens := by
  induction items with
  | nil => rw [List.nil_append, itemTokens]; rfl
  | cons item items ih =>
    obtain ⟨next, rest, split⟩ := List.exists_cons_of_ne_nil (List.concat_ne_nil last items)
    rw [split] at ih
    rw [List.cons_append, split, itemTokens_cons_cons, ih]
    simp [itemsTaken]

theorem memberTokens_concat (members : List (Option String × Tree)) (name : Option String)
    (value : Tree) :
    memberTokens (members ++ [(name, value)]) =
      membersTaken members ++ .text name :: .colon :: value.tokens := by
  induction members with
  | nil => rw [List.nil_append, memberTokens]; rfl
  | cons m members ih =>
    obtain ⟨next, rest, split⟩ := List.exists_cons_of_ne_nil (List.concat_ne_nil (name, value) members)
    rw [split] at ih
    rw [List.cons_append, split, memberTokens_cons_cons, ih]
    simp [membersTaken]

end Tree

/-- The tokens of an open container as far as it was read. -/
def Frame.tokens : Frame → List Token
  | array items => .openBracket :: Tree.itemsTaken items.reverse
  | object members name => .openBrace :: Tree.membersTaken members.reverse ++ [.text name, .colon]

/-- The tokens since the innermost of the open containers, or since the start. -/
def Expected.tokens : Expected → List Token
  | .value => []
  | .firstItem => [.openBracket]
  | .firstName => [.openBrace]
  | .name members => .openBrace :: Tree.membersTaken members.reverse
  | .colon members named => .openBrace :: Tree.membersTaken members.reverse ++ [.text named]
  | .next done => done.tokens

namespace Reader

/-- The tokens that a reader has taken. -/
def tokens (r : Reader) : List Token :=
  r.frames.reverse.flatMap Frame.tokens ++ r.expected.tokens

theorem tokens_of_beginValue {frames : List Frame} {t : Token} {next : Reader}
    (begun : beginValue frames t = some next) :
    next.tokens = frames.reverse.flatMap Frame.tokens ++ [t] := by
  cases t <;> cases begun <;> simp [tokens, deliver, Expected.tokens, Tree.tokens]

theorem tokens_of_afterValue {value : Tree} {frames : List Frame} {t : Token} {next : Reader}
    (followed : afterValue value frames t = some next) :
    next.tokens = tokens (deliver frames value) ++ [t] := by
  unfold afterValue at followed
  split at followed
  · cases followed
    simp [tokens, deliver, Expected.tokens, Frame.tokens, Tree.itemsTaken]
  · cases followed
    simp [tokens, deliver, Expected.tokens, Frame.tokens, Tree.tokens, Tree.itemTokens_concat]
  · cases followed
    simp [tokens, deliver, Expected.tokens, Frame.tokens, Tree.membersTaken]
  · cases followed
    simp [tokens, deliver, Expected.tokens, Frame.tokens, Tree.tokens, Tree.memberTokens_concat]
  · cases followed

/-- A step adds the token that it takes. -/
theorem tokens_of_step {r next : Reader} {t : Token} (stepped : r.step t = some next) :
    next.tokens = r.tokens ++ [t] := by
  obtain ⟨frames, expected⟩ := r
  unfold step at stepped
  split at stepped <;> subst_vars
  case h_1 => simpa [tokens, Expected.tokens] using tokens_of_beginValue stepped
  case h_3 =>
    simpa [tokens, Expected.tokens, Frame.tokens, Tree.itemsTaken] using tokens_of_beginValue stepped
  case h_8 => exact tokens_of_afterValue stepped
  case h_9 => cases stepped
  all_goals
    cases stepped
    simp [tokens, deliver, Expected.tokens, Frame.tokens, Tree.tokens, Tree.itemTokens, Tree.memberTokens,
      Tree.membersTaken]

theorem tokens_of_foldlM {r last : Reader} {ts : List Token} (taken : ts.foldlM step r = some last) :
    last.tokens = r.tokens ++ ts := by
  induction ts generalizing r with
  | nil =>
    cases taken
    rw [List.append_nil]
  | cons t ts ih =>
    rw [List.foldlM_cons] at taken
    obtain ⟨next, stepped, rest⟩ := Option.bind_eq_some_iff.1 taken
    rw [ih rest, tokens_of_step stepped, List.append_assoc, List.singleton_append]

end Reader

/-- The tokens of a text that reads as a tree are those of the tree. -/
theorem Tree.scans_of_parse? {cs : List Char} {t : Tree} (parsed : parse? cs = some t) :
    Scans cs t.tokens := by
  obtain ⟨⟨frames, expected⟩, ran, finished⟩ := Option.bind_eq_some_iff.1 parsed
  obtain ⟨ts, scanned, taken⟩ := Reader.exists_scans ran
  have whole := Reader.tokens_of_foldlM taken
  unfold Reader.finish? at finished
  split at finished
  next noFrames done =>
    cases finished
    dsimp only at noFrames done
    subst noFrames done
    have same : t.tokens = ts := by
      simpa [Reader.tokens, Reader.start, Expected.tokens] using whole
    rw [same]
    exact scanned
  next => cases finished

end IntervalStats.Json
