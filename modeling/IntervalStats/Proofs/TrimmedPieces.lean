import Mathlib.Data.List.TakeWhile
import IntervalStats.Text.Blank
import IntervalStats.Text.Pieces

/-!
# Pieces without the blanks around them

The items of a list in a text are the pieces between its separators, without the blanks around them and
without those that have nothing else. What is known of them follows from two equations, at a separator
(`Text.items_append_cons`) and for a text without one (`Text.items_of_not_mem`): blanks around the whole
text belong to no item (`Text.items_trim`), and items that are joined by separators come apart again
(`Text.items_intercalate`).
-/

namespace IntervalStats.Text

variable {separator : Char} {cs front back : List Char}

/-! ## Blanks at the ends -/

theorem trim_append_left (blank : ∀ c ∈ front, isBlank c = true) (cs : List Char) :
    trim (front ++ cs) = trim cs := by
  rw [trim, List.dropWhile_append_of_pos blank, trim]

theorem trim_append_right (blank : ∀ c ∈ back, isBlank c = true) (cs : List Char) :
    trim (cs ++ back) = trim cs := by
  have reversed : ∀ c ∈ back.reverse, isBlank c = true := by simpa using blank
  rw [trim, List.dropWhile_append]
  split
  · rename_i empty
    -- nothing but blanks: both sides are empty
    rw [trim, List.isEmpty_iff.1 empty, List.dropWhile_eq_nil_iff.2 blank]
  · rw [List.reverse_append, List.dropWhile_append_of_pos reversed, trim]

/-- A text is what is left when it is trimmed, with blanks before and after. -/
theorem exists_eq_append_trim (cs : List Char) :
    ∃ front back, cs = front ++ trim cs ++ back ∧ (∀ c ∈ front, isBlank c = true) ∧
      ∀ c ∈ back, isBlank c = true := by
  have blanks (s : List Char) : ∀ c ∈ s.takeWhile isBlank, isBlank c = true := by
    intro c member
    exact List.all_eq_true.1 List.all_takeWhile c member
  refine ⟨cs.takeWhile isBlank, ((cs.dropWhile isBlank).reverse.takeWhile isBlank).reverse, ?_, blanks cs, ?_⟩
  · rw [trim, List.append_assoc, ← List.reverse_append, List.takeWhile_append_dropWhile, List.reverse_reverse,
      List.takeWhile_append_dropWhile]
  · intro c member
    exact blanks _ c (List.mem_reverse.1 member)

theorem trim_of_visible (visible : ∀ c ∈ cs, isBlank c = false) : trim cs = cs := by
  have kept (s : List Char) (visible : ∀ c ∈ s, isBlank c = false) : s.dropWhile isBlank = s := by
    cases s with
    | nil => rfl
    | cons c s => rw [List.dropWhile_cons_of_neg (by simp [visible c (List.mem_cons_self ..)])]
  have reversed : ∀ c ∈ cs.reverse, isBlank c = false := by simpa using visible
  rw [trim, kept cs visible, kept _ reversed, List.reverse_reverse]

/-! ## Items -/

theorem pieces_eq_splitOn (separator : Char) (cs : List Char) :
    pieces separator cs = cs.splitOn separator := by
  induction cs with
  | nil => rfl
  | cons c rest ih =>
    rw [pieces, ih, List.splitOn_cons_eq_if_modifyHead]
    by_cases same : c = separator
    · simp [same]
    · cases found : rest.splitOn separator with
      | nil => exact absurd found (List.splitOn_ne_nil separator rest)
      | cons piece more => simp [same]

/-- The pieces of a text without the blanks around them, except those that are only blank. -/
def items (separator : Char) (cs : List Char) : List (List Char) :=
  (pieces separator cs).map trim |>.filter (!·.isEmpty)

theorem items_append_cons (separator : Char) (cs rest : List Char) :
    items separator (cs ++ separator :: rest) = items separator cs ++ items separator rest := by
  simp only [items, pieces_eq_splitOn, List.splitOn_append_cons_self, List.map_append, List.filter_append]

theorem items_of_not_mem (whole : separator ∉ cs) :
    items separator cs = [trim cs].filter (!·.isEmpty) := by
  rw [items, pieces_eq_splitOn, List.splitOn_eq_singleton whole, List.map_singleton]

section Blanks

variable (visible : isBlank separator = false)
include visible

theorem not_mem_of_blank (blank : ∀ c ∈ front, isBlank c = true) : separator ∉ front := by
  intro member
  rw [blank separator member] at visible
  cases visible

/-- Blanks before a text fall into its first piece. -/
theorem items_append_left (blank : ∀ c ∈ front, isBlank c = true) (cs : List Char) :
    items separator (front ++ cs) = items separator cs := by
  have apart := not_mem_of_blank visible blank
  have whole (s : List Char) (free : separator ∉ s) : items separator (front ++ s) = items separator s := by
    rw [items_of_not_mem (by simp [apart, free]), items_of_not_mem free, trim_append_left blank]
  by_cases member : separator ∈ cs
  · obtain ⟨first, rest, rfl, free⟩ := List.eq_append_cons_of_mem member
    rw [← List.append_assoc, items_append_cons, items_append_cons, whole first free]
  · exact whole cs member

/-- Blanks after a text fall into its last piece. -/
theorem items_append_right (blank : ∀ c ∈ back, isBlank c = true) (cs : List Char) :
    items separator (cs ++ back) = items separator cs := by
  have apart := not_mem_of_blank visible blank
  have whole (s : List Char) (free : separator ∉ s) : items separator (s ++ back) = items separator s := by
    rw [items_of_not_mem (by simp [apart, free]), items_of_not_mem free, trim_append_right blank]
  by_cases member : separator ∈ cs
  · obtain ⟨last, rest, split, free⟩ := List.eq_append_cons_of_mem (List.mem_reverse.2 member)
    have cut : cs = rest.reverse ++ separator :: last.reverse := by
      rw [← List.reverse_reverse cs, split]
      simp
    rw [cut, List.append_assoc, List.cons_append, items_append_cons, items_append_cons,
      whole last.reverse (by simpa using free)]
  · exact whole cs member

/-- Trimming the whole text first changes no item. -/
theorem items_trim (cs : List Char) : items separator (trim cs) = items separator cs := by
  obtain ⟨front, back, split, before, after⟩ := exists_eq_append_trim cs
  calc items separator (trim cs)
    _ = items separator (front ++ trim cs) := (items_append_left visible before _).symm
    _ = items separator (front ++ trim cs ++ back) := (items_append_right visible after _).symm
    _ = items separator cs := by rw [← split]

end Blanks

/-- Items without blanks and separators that are joined by separators come apart again. -/
theorem items_intercalate {parts : List (List Char)} (some : ∀ part ∈ parts, part ≠ [])
    (whole : ∀ part ∈ parts, separator ∉ part) (visible : ∀ part ∈ parts, ∀ c ∈ part, isBlank c = false) :
    items separator ([separator].intercalate parts) = parts := by
  by_cases none : parts = []
  · rw [none]
    rfl
  · have trimmed : parts.map trim = parts := by
      rw [List.map_congr_left fun part member => trim_of_visible (visible part member), List.map_id']
    rw [items, pieces_eq_splitOn, List.splitOn_intercalate separator whole none, trimmed,
      List.filter_eq_self]
    simpa using some

end IntervalStats.Text
