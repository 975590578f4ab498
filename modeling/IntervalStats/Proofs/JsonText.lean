import Mathlib.Data.List.TakeWhile
import IntervalStats.Json.Tree
import IntervalStats.Proofs.JsonToken

/-!
# Texts of trees

`Spells` relates tokens to the texts that consist of them, with any blanks in between. A text of the
tokens of a tree reads as that tree, whatever its blanks and however deep the tree is
(`Tree.parse?_of_spells`); the reader keeps the open containers in a list, and the tokens of one value
leave the containers around it as they are (`Tree.isTaken`). A tree whose numbers are integers is
spelled by its compact text, which therefore reads back as the tree (`Tree.Canonical.parse?_compact`).
-/

namespace IntervalStats.Json

/-! ## Tokens and blanks -/

/-- The text is the tokens one after the other, with any blanks before, between and after them. -/
inductive Spells : List Token → List Char → Prop where
  | nil {blanks : List Char} (blank : ∀ c ∈ blanks, isSpace c = true) : Spells [] blanks
  | cons {blanks : List Char} {t : Token} {ts : List Token} {rest : List Char}
      (blank : ∀ c ∈ blanks, isSpace c = true) (canonical : t.Canonical) (ends : t.EndsBefore rest)
      (others : Spells ts rest) : Spells (t :: ts) (blanks ++ t.write ++ rest)

/-- A token with no blanks before it. -/
theorem Spells.token {t : Token} {ts : List Token} {rest : List Char} (canonical : t.Canonical)
    (ends : t.EndsBefore rest) (others : Spells ts rest) : Spells (t :: ts) (t.write ++ rest) :=
  .cons (List.forall_mem_nil _) canonical ends others

/-- No token begins with a blank. -/
theorem Token.exists_write_eq_cons {t : Token} (canonical : t.Canonical) :
    ∃ c cs, t.write = c :: cs ∧ isSpace c = false := by
  cases t with
  | number n =>
    obtain ⟨c, cs, text, starts⟩ := exists_text_eq_cons canonical
    refine ⟨c, cs, text, ?_⟩
    rcases starts with rfl | digit
    · rfl
    · by_contra space
      simp only [Bool.not_eq_false, isSpace, Bool.or_eq_true, decide_eq_true_eq] at space
      rcases space with ((rfl | rfl) | rfl) | rfl <;> cases digit
  | text value => cases value <;> exact ⟨_, _, rfl, rfl⟩
  | bool b => cases b <;> exact ⟨_, _, rfl, rfl⟩
  | _ => exact ⟨_, _, rfl, rfl⟩

theorem Reader.run?_of_read {cs rest : List Char} {t : Token}
    (read : Token.read? (cs.dropWhile isSpace) = some (t, rest)) (r : Reader) :
    r.run? cs = (r.step t).bind fun next => next.run? rest := by
  have visible : ¬(cs.dropWhile isSpace).isEmpty = true := by
    intro empty
    rw [List.isEmpty_iff.1 empty] at read
    cases read
  rw [run?, if_neg visible]
  split
  next failed =>
    rw [read] at failed
    cases failed
  next found =>
    rw [read] at found
    cases found
    cases r.step t <;> rfl

/-- Reading a text is taking its tokens in turn. -/
theorem Reader.run?_of_spells {ts : List Token} {cs : List Char} (spelled : Spells ts cs) (r : Reader) :
    r.run? cs = ts.foldlM Reader.step r := by
  induction spelled generalizing r with
  | @nil blanks blank =>
    have none : blanks.dropWhile isSpace = [] := List.dropWhile_eq_nil_iff.2 blank
    rw [run?, none]
    rfl
  | @cons blanks t ts rest blank canonical ends _ ih =>
    obtain ⟨c, cs, text, visible⟩ := t.exists_write_eq_cons canonical
    have starts : (blanks ++ t.write ++ rest).dropWhile isSpace = t.write ++ rest := by
      rw [List.append_assoc, List.dropWhile_append_of_pos blank, text, List.cons_append,
        List.dropWhile_cons_of_neg (by simp [visible])]
    have read : Token.read? ((blanks ++ t.write ++ rest).dropWhile isSpace) = some (t, rest) := by
      rw [starts]
      exact t.read?_write canonical ends
    rw [run?_of_read read, List.foldlM_cons]
    cases r.step t with
    | none => rfl
    | some next => exact ih next

namespace Tree

/-- What holds of a container if it holds of all that is in it holds of every tree. -/
@[elab_as_elim]
theorem inductionOn {motive : Tree → Prop} (t : Tree) (null : motive null)
    (bool : ∀ b, motive (bool b)) (number : ∀ n, motive (number n)) (text : ∀ s, motive (text s))
    (array : ∀ items, (∀ item ∈ items, motive item) → motive (array items))
    (object : ∀ members, (∀ m ∈ members, motive m.2) → motive (object members)) : motive t := by
  match t with
  | .null => exact null
  | .bool b => exact bool b
  | .number n => exact number n
  | .text s => exact text s
  | .array items =>
    exact array items fun item member => inductionOn item null bool number text array object
  | .object members =>
    exact object members fun m member => inductionOn m.2 null bool number text array object
termination_by t
decreasing_by
  · have smaller := List.sizeOf_lt_of_mem member
    simp only [Tree.array.sizeOf_spec]
    omega
  · have smaller := List.sizeOf_lt_of_mem member
    obtain ⟨name, value⟩ := m
    simp only [Prod.mk.sizeOf_spec, Tree.object.sizeOf_spec] at smaller ⊢
    omega

theorem itemTokens_cons_cons (item next : Tree) (rest : List Tree) :
    itemTokens (item :: next :: rest) = item.tokens ++ .comma :: itemTokens (next :: rest) :=
  itemTokens.eq_3 item (next :: rest) (List.cons_ne_nil _ _)

theorem memberTokens_cons_cons (name : Option String) (value : Tree) (next : Option String × Tree)
    (rest : List (Option String × Tree)) :
    memberTokens ((name, value) :: next :: rest) =
      .text name :: .colon :: value.tokens ++ .comma :: memberTokens (next :: rest) :=
  memberTokens.eq_3 name value (next :: rest) (List.cons_ne_nil _ _)

/-! ## Reading -/

/-- A reader of a value takes the tokens of the tree as this tree. -/
def IsTaken (t : Tree) : Prop :=
  ∀ frames, t.tokens.foldlM Reader.step ⟨frames, .value⟩ = some (.deliver frames t)

theorem foldlM_itemTokens {item : Tree} {rest : List Tree} (taken : ∀ i ∈ item :: rest, i.IsTaken)
    (done : List Tree) (frames : List Frame) :
    (itemTokens (item :: rest) ++ [Token.closeBracket]).foldlM Reader.step
        ⟨.array done :: frames, .value⟩ =
      some (.deliver frames (.array (done.reverse ++ item :: rest))) := by
  induction rest generalizing item done with
  | nil =>
    rw [itemTokens, List.foldlM_append, taken item (List.mem_cons_self ..), ← List.reverse_cons]
    rfl
  | cons next rest ih =>
    obtain ⟨first, others⟩ := List.forall_mem_cons.1 taken
    have whole := ih others (item :: done)
    rw [List.reverse_cons, List.append_assoc, List.singleton_append] at whole
    rw [itemTokens_cons_cons, List.append_assoc, List.foldlM_append, first]
    exact whole

theorem foldlM_memberTokens {m : Option String × Tree} {rest : List (Option String × Tree)}
    (taken : ∀ m' ∈ m :: rest, m'.2.IsTaken) (done : List (Option String × Tree))
    (frames : List Frame) :
    (memberTokens (m :: rest) ++ [Token.closeBrace]).foldlM Reader.step ⟨frames, .name done⟩ =
      some (.deliver frames (.object (done.reverse ++ m :: rest))) := by
  induction rest generalizing m done with
  | nil =>
    obtain ⟨name, value⟩ := m
    have last := taken (name, value) (List.mem_cons_self ..) (.object done name :: frames)
    rw [memberTokens, ← List.reverse_cons]
    change (value.tokens ++ _).foldlM Reader.step ⟨.object done name :: frames, .value⟩ = _
    rw [List.foldlM_append, last]
    rfl
  | cons next rest ih =>
    obtain ⟨first, others⟩ := List.forall_mem_cons.1 taken
    obtain ⟨name, value⟩ := m
    have whole := ih others ((name, value) :: done)
    rw [List.reverse_cons, List.append_assoc, List.singleton_append] at whole
    rw [memberTokens_cons_cons, List.append_assoc]
    change (value.tokens ++ _).foldlM Reader.step ⟨.object done name :: frames, .value⟩ = _
    rw [List.foldlM_append, first (.object done name :: frames)]
    exact whole

/-- The first token of a value is taken alike by a reader of a value and by one of a first item. -/
theorem step_firstItem (frames : List Frame) {t : Token} (opens : t ≠ .closeBracket) :
    Reader.step ⟨frames, .firstItem⟩ t = Reader.step ⟨.array [] :: frames, .value⟩ t := by
  cases t with
  | closeBracket => exact absurd rfl opens
  | _ => rfl

theorem exists_tokens_eq_cons (t : Tree) :
    ∃ first others, t.tokens = first :: others ∧ first ≠ .closeBracket := by
  cases t with
  | array items => exact ⟨_, _, by rw [tokens, List.cons_append], by simp⟩
  | object members => exact ⟨_, _, by rw [tokens, List.cons_append], by simp⟩
  | _ => exact ⟨_, _, by rw [tokens], by simp⟩

theorem exists_itemTokens_eq_cons (item : Tree) (rest : List Tree) :
    ∃ first others, itemTokens (item :: rest) = first :: others ∧ first ≠ .closeBracket := by
  obtain ⟨first, others, split, opens⟩ := item.exists_tokens_eq_cons
  cases rest with
  | nil => exact ⟨first, others, by rw [itemTokens, split], opens⟩
  | cons next rest => exact ⟨first, _, by rw [itemTokens_cons_cons, split, List.cons_append], opens⟩

theorem isTaken (t : Tree) : t.IsTaken := by
  induction t using inductionOn with
  | array items taken =>
    intro frames
    cases items with
    | nil => rfl
    | cons item rest =>
      obtain ⟨first, others, split, opens⟩ := exists_itemTokens_eq_cons item rest
      have whole := foldlM_itemTokens taken [] frames
      rw [split, List.cons_append, List.foldlM_cons, ← step_firstItem frames opens] at whole
      rw [tokens, split]
      exact whole
  | object members taken =>
    intro frames
    cases members with
    | nil => rfl
    | cons m rest =>
      have whole := foldlM_memberTokens taken [] frames
      cases rest <;> exact whole
  | _ => exact fun _ => rfl

/-- A text of the tokens of a tree reads as this tree. -/
theorem parse?_of_spells {t : Tree} {cs : List Char} (spelled : Spells t.tokens cs) :
    parse? cs = some t := by
  rw [parse?, Reader.run?_of_spells spelled, Reader.start, t.isTaken]
  rfl

/-! ## Writing -/

/-- All numbers of the tree are in the form in which integers are written. -/
inductive Canonical : Tree → Prop where
  | null : Canonical null
  | bool (b : Bool) : Canonical (bool b)
  | number {n : Numeral} (canonical : n.Canonical) : Canonical (number n)
  | text (s : Option String) : Canonical (text s)
  | array {items : List Tree} (each : ∀ item ∈ items, Canonical item) : Canonical (array items)
  | object {members : List (Option String × Tree)} (each : ∀ m ∈ members, Canonical m.2) :
      Canonical (object members)

theorem canonical_ofInt (n : Int) : (ofInt n).Canonical :=
  .number (Numeral.canonical_ofInt n)

theorem canonical_ofMembers {members : List (String × Tree)} (each : ∀ m ∈ members, m.2.Canonical) :
    (ofMembers members).Canonical := by
  refine .object fun m member => ?_
  obtain ⟨named, listed, rfl⟩ := List.mem_map.1 member
  exact each named listed

/-- The tokens of the tree without blanks are a text of them, before any text that ends a numeral. -/
def IsSpelled (t : Tree) : Prop :=
  ∀ ts rest, EndsNumeral rest → Spells ts rest →
    Spells (t.tokens ++ ts) (t.tokens.flatMap Token.write ++ rest)

theorem spells_itemTokens {items : List Tree} (spelled : ∀ item ∈ items, item.IsSpelled)
    {ts : List Token} {rest : List Char} (ends : EndsNumeral rest) (others : Spells ts rest) :
    Spells (itemTokens items ++ ts) ((itemTokens items).flatMap Token.write ++ rest) := by
  induction items with
  | nil => simpa [itemTokens] using others
  | cons item items ih =>
    obtain ⟨first, later⟩ := List.forall_mem_cons.1 spelled
    cases items with
    | nil => simpa only [itemTokens] using first ts rest ends others
    | cons next items =>
      have comma := Spells.token (t := .comma) trivial trivial (ih later)
      have whole := first _ _ (endsNumeral_cons _ rfl) comma
      simpa [itemTokens_cons_cons, Token.write] using whole

theorem spells_memberTokens {members : List (Option String × Tree)}
    (spelled : ∀ m ∈ members, m.2.IsSpelled) {ts : List Token} {rest : List Char}
    (ends : EndsNumeral rest) (others : Spells ts rest) :
    Spells (memberTokens members ++ ts) ((memberTokens members).flatMap Token.write ++ rest) := by
  induction members with
  | nil => simpa [memberTokens] using others
  | cons m members ih =>
    obtain ⟨first, later⟩ := List.forall_mem_cons.1 spelled
    obtain ⟨name, value⟩ := m
    have named {ts : List Token} {cs : List Char} (after : Spells ts cs) :=
      Spells.token (t := .text name) trivial trivial (.token (t := .colon) trivial trivial after)
    cases members with
    | nil => simpa [memberTokens] using named (first ts rest ends others)
    | cons next members =>
      have comma := Spells.token (t := .comma) trivial trivial (ih later)
      have whole := named (first _ _ (endsNumeral_cons _ rfl) comma)
      simpa [memberTokens_cons_cons, Token.write] using whole

namespace Canonical

variable {t : Tree}

theorem isSpelled (canonical : t.Canonical) : t.IsSpelled := by
  intro ts rest ends others
  induction canonical generalizing ts rest with
  | array each ih =>
    have close := Spells.token (t := .closeBracket) trivial trivial others
    have items := spells_itemTokens ih (endsNumeral_cons _ rfl) close
    simpa [tokens, Token.write] using Spells.token (t := .openBracket) trivial trivial items
  | object each ih =>
    have close := Spells.token (t := .closeBrace) trivial trivial others
    have members := spells_memberTokens ih (endsNumeral_cons _ rfl) close
    simpa [tokens, Token.write] using Spells.token (t := .openBrace) trivial trivial members
  | number canonical => simpa [tokens] using Spells.token (t := .number _) canonical ends others
  | null => simpa [tokens] using Spells.token (t := .null) trivial trivial others
  | bool b => simpa [tokens] using Spells.token (t := .bool b) trivial trivial others
  | text s => simpa [tokens] using Spells.token (t := .text s) trivial trivial others

theorem spells_compact (canonical : t.Canonical) : Spells t.tokens t.compact := by
  have whole := canonical.isSpelled [] [] endsNumeral_nil (.nil (List.forall_mem_nil _))
  simpa [compact] using whole

/-- A tree of integers, texts and containers is read back from its compact text. -/
theorem parse?_compact (canonical : t.Canonical) : parse? t.compact = some t :=
  parse?_of_spells canonical.spells_compact

end Canonical

end Tree

end IntervalStats.Json
