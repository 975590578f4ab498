import Mathlib.Data.List.Induction
import IntervalStats.Table

/-!
# Entries of a table

Look-up in a table that was built by insertion. The names of a table increase, so a value is found under
its name exactly if it is an entry (`Table.get?_eq_some_iff`), and inserting the entries of a table one
after the other builds it again (`Table.ofList_entries`).
-/

namespace IntervalStats

variable {α : Type} {name n : String} {value : α} {entries : List (String × α)}

theorem lookup_cons_ite (m : String) (v : α) :
    ((m, v) :: entries).lookup n = if n = m then some v else entries.lookup n := by
  by_cases same : n = m
  · rw [same, List.lookup_cons_self, if_pos rfl]
  · rw [List.lookup_cons, beq_false_of_ne same, if_neg same]

theorem lookup_insertEntry :
    (insertEntry name value entries).lookup n =
      if n = name then some value else entries.lookup n := by
  induction entries with
  | nil => rw [insertEntry, lookup_cons_ite]
  | cons head rest ih =>
    obtain ⟨m, v⟩ := head
    rw [insertEntry]
    split
    · rw [lookup_cons_ite]
    · rename_i notLt
      split
      · rename_i lt
        have different : name ≠ m := fun same => String.lt_irrefl _ (same ▸ lt)
        rw [lookup_cons_ite, lookup_cons_ite, ih]
        by_cases first : n = m
        · simp [first, different.symm]
        · simp [first]
      · rename_i notGt
        have same : name = m := String.le_antisymm (String.not_lt.1 notGt) (String.not_lt.1 notLt)
        rw [lookup_cons_ite, lookup_cons_ite, same]
        by_cases first : n = m <;> simp [first]

theorem lookup_filter_ne :
    (entries.filter (·.1 ≠ name)).lookup n = if n = name then none else entries.lookup n := by
  induction entries with
  | nil => simp
  | cons head rest ih =>
    obtain ⟨m, v⟩ := head
    by_cases out : m = name
    · rw [List.filter_cons_of_neg (by simpa using out), ih, lookup_cons_ite, out]
      by_cases same : n = name <;> simp [same]
    · rw [List.filter_cons_of_pos (by simpa using out), lookup_cons_ite, lookup_cons_ite, ih]
      by_cases first : n = m
      · simp [first, out]
      · simp [first]

@[simp] theorem Table.get?_insert (t : Table α) :
    (t.insert name value).get? n = if n = name then some value else t.get? n :=
  lookup_insertEntry

@[simp] theorem Table.get?_erase (t : Table α) :
    (t.erase name).get? n = if n = name then none else t.get? n :=
  lookup_filter_ne

theorem lookup_eq_some_of_mem (member : (name, value) ∈ entries)
    (unique : ∀ v, (name, v) ∈ entries → v = value) : entries.lookup name = some value := by
  induction entries with
  | nil => cases member
  | cons head rest ih =>
    obtain ⟨m, v⟩ := head
    rw [lookup_cons_ite]
    by_cases first : name = m
    · rw [if_pos first, unique v (first ▸ List.mem_cons_self ..)]
    · rw [if_neg first]
      refine ih ?_ fun v given => unique v (List.mem_cons_of_mem _ given)
      rcases List.mem_cons.1 member with same | later
      · exact absurd (congrArg Prod.fst same) first
      · exact later

theorem Table.ofList_concat (entries : List (String × α)) (e : String × α) :
    Table.ofList (entries ++ [e]) = (Table.ofList entries).insert e.1 e.2 := by
  simp only [ofList, List.foldl_append, List.foldl_cons, List.foldl_nil]

theorem Table.get?_ofList (n : String) (entries : List (String × α)) :
    (Table.ofList entries).get? n = entries.reverse.lookup n := by
  induction entries using List.reverseRecOn with
  | nil => rfl
  | append_singleton entries e ih =>
    rw [ofList_concat, List.reverse_append, List.reverse_singleton, List.singleton_append, lookup_cons_ite,
      ← ih]
    exact lookup_insertEntry

/-- A value is found under its name if no other value is given under that name. -/
theorem Table.get?_ofList_of_mem (member : (name, value) ∈ entries)
    (unique : ∀ v, (name, v) ∈ entries → v = value) : (Table.ofList entries).get? name = some value := by
  rw [get?_ofList]
  apply lookup_eq_some_of_mem (List.mem_reverse.2 member)
  intro v given
  exact unique v (List.mem_reverse.1 given)

/-! ## Entries of a list -/

theorem Table.mem_of_mem_ofList {e : String × α} (member : e ∈ (Table.ofList entries).entries) :
    e ∈ entries := by
  induction entries using List.reverseRecOn with
  | nil => cases member
  | append_singleton entries last ih =>
    rw [ofList_concat] at member
    rw [List.mem_append, List.mem_singleton]
    exact (mem_insertEntry member).symm.imp_left ih

theorem length_insertEntry_le : (insertEntry name value entries).length ≤ entries.length + 1 := by
  induction entries with
  | nil => exact Nat.le_refl _
  | cons head rest ih =>
    rw [insertEntry]
    split
    · exact Nat.le_refl _
    · split
      · exact Nat.succ_le_succ ih
      · exact Nat.le_succ _

theorem Table.size_ofList_le : (Table.ofList entries).size ≤ entries.length := by
  induction entries using List.reverseRecOn with
  | nil => exact Nat.le_refl _
  | append_singleton entries e ih =>
    rw [ofList_concat, List.length_append, List.length_singleton]
    exact Nat.le_trans length_insertEntry_le (Nat.succ_le_succ ih)

theorem perm_insertEntry (absent : name ∉ entries.map Prod.fst) :
    (insertEntry name value entries).Perm ((name, value) :: entries) := by
  induction entries with
  | nil => exact .refl _
  | cons head rest ih =>
    obtain ⟨n, v⟩ := head
    rw [List.map_cons, List.mem_cons, not_or] at absent
    rw [insertEntry]
    split
    · exact .refl _
    · rename_i notLt
      split
      · exact ((ih absent.2).cons _).trans (.swap ..)
      · rename_i notGt
        exact absurd (String.le_antisymm (String.not_lt.1 notGt) (String.not_lt.1 notLt)) absent.1

/-- A table of entries with names of their own has just these entries. -/
theorem Table.perm_ofList (distinct : (entries.map Prod.fst).Nodup) :
    (Table.ofList entries).entries.Perm entries := by
  induction entries using List.reverseRecOn with
  | nil => exact .refl _
  | append_singleton entries e ih =>
    rw [List.map_append, List.map_singleton, List.nodup_append] at distinct
    obtain ⟨before, -, apart⟩ := distinct
    have same := ih before
    have absent : e.1 ∉ (Table.ofList entries).entries.map Prod.fst := by
      rw [(same.map Prod.fst).mem_iff]
      exact fun given => apart _ given _ (List.mem_singleton_self _) rfl
    rw [ofList_concat]
    exact (perm_insertEntry absent).trans ((same.cons e).trans (List.perm_append_singleton e entries).symm)

/-! ## Names in increasing order -/

theorem Ascending.eq_of_mem (ascending : Ascending entries) {v w : α} (left : (name, v) ∈ entries)
    (right : (name, w) ∈ entries) : v = w := by
  induction entries with
  | nil => cases left
  | cons head rest ih =>
    obtain ⟨later, ascending⟩ := List.pairwise_cons.1 ascending
    have twice {u : α} (first : head = (name, u)) {u' : α} : (name, u') ∉ rest := by
      intro member
      have less := later _ member
      rw [first] at less
      exact String.lt_irrefl _ less
    rcases List.mem_cons.1 left with first | leftRest
    · rcases List.mem_cons.1 right with second | rightRest
      · exact congrArg Prod.snd (first.trans second.symm)
      · exact absurd rightRest (twice first.symm)
    · rcases List.mem_cons.1 right with second | rightRest
      · exact absurd leftRest (twice second.symm)
      · exact ih ascending leftRest rightRest

/-- A value is found under a name exactly if the two are an entry. -/
theorem Table.get?_eq_some_iff {t : Table α} :
    t.get? name = some value ↔ (name, value) ∈ t.entries := by
  constructor
  · intro found
    obtain ⟨before, after, split, -⟩ := List.lookup_eq_some_iff.1 found
    rw [split]
    exact List.mem_append_right _ (List.mem_cons_self ..)
  · intro member
    exact lookup_eq_some_of_mem member fun v given => t.ascending.eq_of_mem given member

theorem Ascending.nodup (ascending : Ascending entries) : entries.Nodup := by
  refine List.Pairwise.imp ?_ ascending
  rintro a b less rfl
  exact String.lt_irrefl _ less

/-- Tables with the same values under all names are equal. -/
theorem Table.eq_of_get? {t u : Table α} (same : ∀ n, t.get? n = u.get? n) : t = u := by
  have members (e : String × α) : e ∈ t.entries ↔ e ∈ u.entries := by
    rw [← get?_eq_some_iff, ← get?_eq_some_iff, same]
  have perm := (List.perm_ext_iff_of_nodup t.ascending.nodup u.ascending.nodup).2 members
  refine Table.ext (List.Perm.eq_of_pairwise ?_ t.ascending u.ascending perm)
  intro a b _ _ less greater
  exact absurd (String.lt_trans less greater) (String.lt_irrefl _)

theorem insertEntry_of_lt (greatest : ∀ e ∈ entries, e.1 < name) :
    insertEntry name value entries = entries ++ [(name, value)] := by
  induction entries with
  | nil => rfl
  | cons head rest ih =>
    obtain ⟨less, others⟩ := List.forall_mem_cons.1 greatest
    have notGreater : ¬name < head.1 := fun greater => String.lt_irrefl _ (String.lt_trans less greater)
    rw [insertEntry, if_neg notGreater, if_pos less, ih others, List.cons_append]

theorem entries_ofList (ascending : Ascending entries) : (Table.ofList entries).entries = entries := by
  induction entries using List.reverseRecOn with
  | nil => rfl
  | append_singleton entries e ih =>
    obtain ⟨before, -, last⟩ := List.pairwise_append.1 ascending
    rw [Table.ofList_concat]
    change insertEntry e.1 e.2 (Table.ofList entries).entries = _
    rw [ih before, insertEntry_of_lt]
    intro e' member
    exact last e' member e (List.mem_singleton_self e)

/-- A table is the table of its entries. -/
theorem Table.ofList_entries (t : Table α) : Table.ofList t.entries = t :=
  Table.ext (entries_ofList t.ascending)

end IntervalStats
