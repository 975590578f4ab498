/-!
# Tables

A table holds values under names, in increasing order of the names (by code points, which is also the
order of their UTF-8 bytes), each name at most once. Inserting under a name that is there replaces
the value, so `Table.ofList` keeps the last of several values given for one name. Two tables with the
same entries are equal.
-/

namespace IntervalStats

variable {α β : Type}

/-- Puts a value under a name into entries in increasing order, replacing the value that is there. -/
def insertEntry (name : String) (value : α) : List (String × α) → List (String × α)
  | [] => [(name, value)]
  | (n, v) :: rest =>
    if name < n then (name, value) :: (n, v) :: rest
    else if n < name then (n, v) :: insertEntry name value rest
    else (name, value) :: rest

/-- The names of the entries strictly increase. -/
def Ascending (entries : List (String × α)) : Prop :=
  entries.Pairwise fun a b => a.1 < b.1

theorem mem_insertEntry {name : String} {value : α} {entries : List (String × α)} {e : String × α}
    (h : e ∈ insertEntry name value entries) : e = (name, value) ∨ e ∈ entries := by
  induction entries with
  | nil => simpa [insertEntry] using h
  | cons head rest ih =>
    obtain ⟨n, v⟩ := head
    rw [insertEntry] at h
    split at h
    · simpa using h
    · split at h
      · rcases List.mem_cons.1 h with rfl | h
        · exact .inr (List.mem_cons_self ..)
        · exact (ih h).imp_right (List.mem_cons_of_mem _)
      · rcases List.mem_cons.1 h with rfl | h
        · exact .inl rfl
        · exact .inr (List.mem_cons_of_mem _ h)

theorem ascending_insertEntry (name : String) (value : α) {entries : List (String × α)}
    (h : Ascending entries) : Ascending (insertEntry name value entries) := by
  induction entries with
  | nil => exact List.pairwise_singleton ..
  | cons head rest ih =>
    obtain ⟨n, v⟩ := head
    obtain ⟨hn, hrest⟩ := List.pairwise_cons.1 h
    rw [insertEntry]
    split
    · rename_i lt
      refine List.pairwise_cons.2 ⟨fun e he => ?_, h⟩
      rcases List.mem_cons.1 he with rfl | he
      · exact lt
      · exact String.lt_trans lt (hn e he)
    · rename_i notLt
      split
      · rename_i lt
        refine List.pairwise_cons.2 ⟨fun e he => ?_, ih hrest⟩
        rcases mem_insertEntry he with rfl | he
        · exact lt
        · exact hn e he
      · rename_i notGt
        have same : name = n := String.le_antisymm (String.not_lt.1 notGt) (String.not_lt.1 notLt)
        exact List.pairwise_cons.2 ⟨same ▸ hn, hrest⟩

/-- Values under names, in increasing order of the names. -/
@[ext] structure Table (α : Type) where
  entries : List (String × α)
  ascending : Ascending entries

namespace Table

def empty : Table α := ⟨[], List.Pairwise.nil⟩

/-- Puts a value under a name, replacing the value that is there. -/
def insert (t : Table α) (name : String) (value : α) : Table α :=
  ⟨insertEntry name value t.entries, ascending_insertEntry name value t.ascending⟩

/-- The table of a list of entries; of several values under one name the last is kept. -/
def ofList (entries : List (String × α)) : Table α :=
  entries.foldl (fun t e => t.insert e.1 e.2) empty

/-- Takes out the value under a name, if there is one. -/
def erase (t : Table α) (name : String) : Table α :=
  ⟨t.entries.filter (·.1 ≠ name), t.ascending.filter _⟩

/-- The value under a name. -/
def get? (t : Table α) (name : String) : Option α :=
  t.entries.lookup name

def size (t : Table α) : Nat :=
  t.entries.length

end Table

end IntervalStats
