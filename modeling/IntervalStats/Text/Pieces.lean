/-!
# Pieces of a text

A text is cut at every occurrence of a separator. There is one piece more than there are separators,
so the pieces of the empty text are one empty piece. A text that has an ending is the piece before it
and the ending.
-/

namespace IntervalStats.Text

/-- The pieces of a text between its separators. -/
def pieces (separator : Char) : List Char → List (List Char)
  | [] => [[]]
  | c :: rest =>
    if c = separator then [] :: pieces separator rest
    else match pieces separator rest with
      | [] => [[c]]
      | piece :: more => (c :: piece) :: more

/-- The piece before an ending, if the text has it. -/
def beforeEnding? (ending cs : List Char) : Option (List Char) :=
  if ending.isSuffixOf cs then some (cs.take (cs.length - ending.length)) else none

theorem beforeEnding?_eq_some_iff {ending cs front : List Char} :
    beforeEnding? ending cs = some front ↔ cs = front ++ ending := by
  rw [beforeEnding?, Option.ite_none_right_eq_some, List.isSuffixOf_iff_suffix, Option.some.injEq]
  constructor
  · intro ⟨⟨before, split⟩, taken⟩
    rw [← split, List.length_append, Nat.add_sub_cancel, List.take_left] at taken
    rw [← split, taken]
  · intro split
    refine ⟨⟨front, split.symm⟩, ?_⟩
    rw [split, List.length_append, Nat.add_sub_cancel, List.take_left]

end IntervalStats.Text
