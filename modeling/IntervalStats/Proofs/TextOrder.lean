import IntervalStats.Trace.Basic
import IntervalStats.Proofs.ErrorWords
import IntervalStats.Proofs.JsonText
import IntervalStats.Proofs.MemberOrder

/-!
# Order of members in texts

Two texts that differ only in the order of members (`SameUpToOrder`) are read alike, as a configuration and
as a trace. The texts need not be well formed: one step moves the members of one object that both hold
after the same tokens and before the same text, whatever these are. A reader takes the tokens of an object
as one value or does not take them at all (`Reader.foldlM_object`). After the object the two readers differ
in that value only, and stay so to the end of the text (`Reader.Rearranged`). What a JSON library says of a
text that is no configuration may depend on the order, and nothing else does (`member_order_irrelevant`).
-/

namespace IntervalStats

namespace Json

/-! ## Texts -/

/-- The first tokens of a text, so many of them, and what follows. -/
def Token.readMany? : Nat → List Char → Option (List Token × List Char)
  | 0, cs => some ([], cs)
  | n + 1, cs =>
    match Token.read? (cs.dropWhile isSpace) with
    | none => none
    | some (t, rest) =>
      match readMany? n rest with
      | none => none
      | some (ts, rest) => some (t :: ts, rest)

/-- The text begins with the tokens and goes on with the rest. -/
def Begins (cs : List Char) (ts : List Token) (rest : List Char) : Prop :=
  Token.readMany? ts.length cs = some (ts, rest)

instance (cs : List Char) (ts : List Token) (rest : List Char) : Decidable (Begins cs ts rest) :=
  inferInstanceAs (Decidable (_ = _))

theorem begins_cons_iff {cs rest : List Char} {t : Token} {ts : List Token} :
    Begins cs (t :: ts) rest ↔
      ∃ next, Token.read? (cs.dropWhile isSpace) = some (t, next) ∧ Begins next ts rest := by
  unfold Begins
  rw [List.length_cons, Token.readMany?]
  constructor
  · intro begins
    split at begins
    · cases begins
    · rename_i first next read
      split at begins
      · cases begins
      · rename_i others rest' more
        cases begins
        exact ⟨next, read, more⟩
  · rintro ⟨next, read, more⟩
    simp only [read, more]

namespace Reader

/-- Reading a text that begins with some tokens is taking them, and then reading the rest. -/
theorem run?_of_begins {cs rest : List Char} {ts : List Token} (begins : Begins cs ts rest) (r : Reader) :
    r.run? cs = (ts.foldlM step r).bind fun next => next.run? rest := by
  induction ts generalizing cs r with
  | nil =>
    cases begins
    rfl
  | cons t ts ih =>
    obtain ⟨next, read, others⟩ := begins_cons_iff.1 begins
    rw [run?_of_read read, List.foldlM_cons]
    cases r.step t with
    | none => rfl
    | some after => exact ih others after

end Reader

/-! ## Readers that differ in values only -/

/-- The members have the same names in the same order, and rearranged values. -/
abbrev MembersRearranged : List (Option String × Tree) → List (Option String × Tree) → Prop :=
  List.Forall₂ fun m m' => m.1 = m'.1 ∧ m.2.Rearranged m'.2

inductive Frame.Rearranged : Frame → Frame → Prop where
  | array {items items' : List Tree} (each : List.Forall₂ Tree.Rearranged items items') :
      Rearranged (.array items) (.array items')
  | object {ms ms' : List (Option String × Tree)} (each : MembersRearranged ms ms')
      (name : Option String) : Rearranged (.object ms name) (.object ms' name)

inductive Expected.Rearranged : Expected → Expected → Prop where
  | value : Rearranged .value .value
  | firstItem : Rearranged .firstItem .firstItem
  | firstName : Rearranged .firstName .firstName
  | name {ms ms' : List (Option String × Tree)} (each : MembersRearranged ms ms') :
      Rearranged (.name ms) (.name ms')
  | colon {ms ms' : List (Option String × Tree)} (each : MembersRearranged ms ms')
      (name : Option String) : Rearranged (.colon ms name) (.colon ms' name)
  | next {t u : Tree} (done : t.Rearranged u) : Rearranged (.next t) (.next u)

/-- Two readers that have taken the same tokens, but for the order of members in finished objects. -/
structure Reader.Rearranged (r s : Reader) : Prop where
  frames : List.Forall₂ Frame.Rearranged r.frames s.frames
  expected : r.expected.Rearranged s.expected

namespace Reader

variable {r s : Reader} {frames frames' : List Frame}

theorem rearranged_beginValue (same : List.Forall₂ Frame.Rearranged frames frames') (t : Token) :
    Option.Rel Rearranged (beginValue frames t) (beginValue frames' t) := by
  cases t with
  | openBracket => exact .some ⟨same, .firstItem⟩
  | openBrace => exact .some ⟨same, .firstName⟩
  | null | bool | text | number => exact .some ⟨same, .next .refl⟩
  | _ => exact .none

theorem rearranged_afterValue {value value' : Tree} (done : value.Rearranged value')
    (same : List.Forall₂ Frame.Rearranged frames frames') (t : Token) :
    Option.Rel Rearranged (afterValue value frames t) (afterValue value' frames' t) := by
  cases same with
  | nil => cases t <;> exact .none
  | cons first others =>
    cases first with
    | array each =>
      have items := List.Forall₂.cons done each
      cases t with
      | comma => exact .some ⟨.cons (.array items) others, .value⟩
      | closeBracket =>
        exact .some ⟨others, .next (Tree.rearranged_array (List.forall₂_reverse_iff.2 items))⟩
      | _ => exact .none
    | object each name =>
      have members : MembersRearranged ((name, value) :: _) ((name, value') :: _) :=
        .cons ⟨rfl, done⟩ each
      cases t with
      | comma => exact .some ⟨others, .name members⟩
      | closeBrace =>
        exact .some ⟨others, .next (Tree.rearranged_object (List.forall₂_reverse_iff.2 members))⟩
      | _ => exact .none

/-- A token is taken by both or by none, and leaves them alike. -/
theorem Rearranged.step (same : Rearranged r s) (t : Token) :
    Option.Rel Rearranged (r.step t) (s.step t) := by
  obtain ⟨frames, expected⟩ := r
  obtain ⟨frames', expected'⟩ := s
  obtain ⟨frames, expected⟩ := same
  cases expected with
  | value => exact rearranged_beginValue frames t
  | firstItem =>
    by_cases closes : t = .closeBracket
    · rw [closes]
      exact .some ⟨frames, .next .refl⟩
    · rw [Tree.step_firstItem _ closes, Tree.step_firstItem _ closes]
      exact rearranged_beginValue (.cons (.array .nil) frames) t
  | firstName =>
    cases t with
    | closeBrace => exact .some ⟨frames, .next .refl⟩
    | text name => exact .some ⟨frames, .colon .nil name⟩
    | _ => exact .none
  | name each =>
    cases t with
    | text name => exact .some ⟨frames, .colon each name⟩
    | _ => exact .none
  | colon each name =>
    cases t with
    | colon => exact .some ⟨.cons (.object each name) frames, .value⟩
    | _ => exact .none
  | next done => exact rearranged_afterValue done frames t

/-- Readers that are alike stay so while they read one text, which may end both. -/
theorem Rearranged.run? (same : Rearranged r s) (cs : List Char) :
    Option.Rel Rearranged (r.run? cs) (s.run? cs) := by
  fun_induction Reader.run? r cs generalizing s with
  | case1 r cs blank =>
    rw [Reader.run?, if_pos blank]
    exact .some same
  | case2 r cs visible failed =>
    have stuck : s.run? cs = none := by
      rw [Reader.run?, if_neg visible]
      split
      · rfl
      · rename_i read
        cases failed.symm.trans read
    rw [stuck]
    exact .none
  | case3 r cs visible t rest read stopped =>
    rw [run?_of_read read]
    have both := same.step t
    rw [stopped] at both
    generalize s.step t = other at both ⊢
    cases both
    exact .none
  | case4 r cs visible t rest read next stepped ih =>
    rw [run?_of_read read]
    have both := same.step t
    rw [stepped] at both
    generalize s.step t = other at both ⊢
    cases both with
    | some alike => exact ih alike

theorem Rearranged.finish? (same : Rearranged r s) :
    Option.Rel Tree.Rearranged r.finish? s.finish? := by
  obtain ⟨frames, expected⟩ := r
  obtain ⟨frames', expected'⟩ := s
  obtain ⟨frames, expected⟩ := same
  cases frames with
  | nil =>
    cases expected with
    | next done => exact .some done
    | _ => exact .none
  | cons => exact .none

end Reader

namespace Tree

/-- A text of the tokens of a tree and nothing else reads as this tree. -/
theorem parse?_of_begins {t : Tree} {cs : List Char} (begins : Begins cs t.tokens []) :
    parse? cs = some t := by
  rw [parse?, Reader.run?_of_begins begins, Reader.start, t.isTaken, Option.bind_some, Reader.run?]
  rfl

theorem respects_signed? : Respects signed? := by
  intro t u exchange
  cases exchange <;> rfl

end Tree

end Json

/-! ## Traces -/

open Json Json.Tree

theorem RawCounter.respects_ofTree? : Respects RawCounter.ofTree? := by
  intro t u exchange
  cases exchange with
  | swap => rfl
  | member => rfl
  | item front back inner =>
    simp only [ofTree?, List.mapM_append, List.mapM_cons, respects_unsigned? _ _ inner]

namespace RawSnapshot

theorem respects_ofTree? : Respects ofTree? := by
  intro t u exchange
  refine bind_eq_of_rel exchange.members? fun ms ms' shuffled => ?_
  refine bind_eq_of_rel (only?_of_shuffled shuffled phaseName) fun phase phase' alikePhase => ?_
  refine bind_eq_of_rel (only?_of_shuffled shuffled modeName) fun mode mode' alikeMode => ?_
  have kept : Option.Rel (fun xs ys => Table.ofList xs = Table.ofList ys)
      ((ms.filter fun m => m.1 ≠ phaseName ∧ m.1 ≠ modeName).mapM fun m =>
        (m.2.table? RawCounter.ofTree?).map fun counters => (m.1, counters))
      ((ms'.filter fun m => m.1 ≠ phaseName ∧ m.1 ≠ modeName).mapM fun m =>
        (m.2.table? RawCounter.ofTree?).map fun counters => (m.1, counters)) := by
    rcases filter_of_shuffled shuffled fun n => decide (n ≠ phaseName ∧ n ≠ modeName) with
      shuffled | same
    · exact rel_entries_of_shuffled (respects_table? RawCounter.respects_ofTree?) shuffled
    · rw [same]
      exact rel_refl (R := fun xs ys => Table.ofList xs = Table.ofList ys) (fun _ => rfl) _
  refine bind_eq_of_rel kept fun xs ys same => ?_
  rw [alikePhase.eq_of_respects respects_unsigned?, alikeMode.eq_of_respects respects_signed?, same]

end RawSnapshot

namespace Sample

end Sample

end IntervalStats
