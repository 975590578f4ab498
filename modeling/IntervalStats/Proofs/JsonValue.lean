import IntervalStats.Proofs.JsonText
import IntervalStats.Proofs.Outcome
import IntervalStats.Proofs.TableEntries
import IntervalStats.Json.Value

/-!
# Values read back from trees

Words, lists and tables are read back from the trees they are written as: a word from the numeral of its
integer, a list if all its elements are read back (`mapM_map_eq_ite`), and a table from the object of its
entries (`Tree.table?_ofMembers`). `Tree.only?` finds the one member of a name, and none if two members
share the name.
-/

namespace IntervalStats

open Json (Tree)

/-! ## Numbers -/

theorem Numeral.magnitude_ofInt (n : Int) : (ofInt n).magnitude = n.natAbs :=
  ofDecimalDigits_decimalDigits n.natAbs

theorem Numeral.unsigned?_ofInt (n : UInt64) : (ofInt n.toNat).unsigned? = some n := by
  have magnitude : (ofInt n.toNat).magnitude = n.toNat := by rw [magnitude_ofInt, Int.natAbs_natCast]
  have nonnegative : (ofInt n.toNat).negative = false := by simp [ofInt]
  have small : n.toNat < UInt64.size := n.toNat_lt
  rw [unsigned?, magnitude, nonnegative, if_pos (by simp [small, isInteger, ofInt]), UInt64.ofNat_toNat]

theorem Numeral.signed?_ofInt (n : Int64) : (ofInt n.toInt).signed? = some n := by
  have least := n.le_toInt
  have greatest := n.toInt_lt
  have magnitude := magnitude_ofInt n.toInt
  have integer : (ofInt n.toInt).isInteger = true := rfl
  by_cases negative : n.toInt < 0
  · have sign : (ofInt n.toInt).negative = true := by simp [ofInt, negative]
    have back : -(n.toInt.natAbs : Int) = n.toInt := by omega
    rw [signed?, integer, sign, magnitude, if_neg (by simp), if_pos rfl, if_pos (by simp; omega), back,
      Int64.ofInt_toInt]
  · have sign : (ofInt n.toInt).negative = false := by simp [ofInt, negative]
    have back : (n.toInt.natAbs : Int) = n.toInt := by omega
    rw [signed?, integer, sign, magnitude, if_neg (by simp), if_neg (by simp), if_pos (by omega), back,
      Int64.ofInt_toInt]

/-! ## Lists and objects -/

section Options

variable {α β : Type} {write : α → β} {read? : β → Option α}

/-- A list is read back if all its elements are, and not at all otherwise. -/
theorem mapM_map_eq_ite {P : α → Prop} [DecidablePred P]
    (reads : ∀ a, read? (write a) = if P a then some a else none) (as : List α) :
    (as.map write).mapM read? = if ∀ a ∈ as, P a then some as else none := by
  induction as with
  | nil => simp
  | cons a as ih =>
    rw [List.map_cons, List.mapM_cons, reads, ih]
    by_cases first : P a
    · by_cases others : ∀ a ∈ as, P a
      · rw [if_pos first, if_pos others, if_pos (List.forall_mem_cons.2 ⟨first, others⟩)]
        rfl
      · rw [if_pos first, if_neg others, if_neg fun all => others (List.forall_mem_cons.1 all).2]
        rfl
    · rw [if_neg first, if_neg fun all => first (List.forall_mem_cons.1 all).1]
      rfl

theorem mapM_map_eq_some (reads : ∀ a, read? (write a) = some a) (as : List α) :
    (as.map write).mapM read? = some as := by
  simpa using mapM_map_eq_ite (P := fun _ => True) (by simpa using reads) as

end Options

namespace Json.Tree

theorem members?_ofMembers (members : List (String × Tree)) :
    (ofMembers members).members? = some members := by
  apply mapM_map_eq_some
  intro m
  rfl

theorem eq_ofMembers_of_members? {t : Tree} {members : List (String × Tree)}
    (read : t.members? = some members) : t = ofMembers members := by
  cases t with
  | object named =>
    have all := mapM_eq_some_iff.1 (by simpa only [members?] using read)
    rw [ofMembers, object.injEq]
    clear read
    induction all with
    | nil => rfl
    | cons first _ ih =>
      obtain ⟨name, given, rfl⟩ := Option.map_eq_some_iff.1 first
      rw [List.map_cons, ← ih, ← given]
  | _ => cases read

section Table

variable {α : Type} {read? : Tree → Option α} {t : Tree} {table : Table α}

theorem table?_eq_some_iff :
    t.table? read? = some table ↔ ∃ members entries, t.members? = some members ∧
      members.mapM (fun m => (read? m.2).map (m.1, ·)) = some entries ∧ Table.ofList entries = table := by
  simp only [table?, Option.bind_eq_bind, Option.bind_eq_some_iff, Option.pure_def, Option.some.injEq,
    exists_and_left]

/-- Every value of a table is read from a member of the object. -/
theorem exists_of_table? (read : t.table? read? = some table) :
    ∃ members, t.members? = some members ∧
      ∀ e ∈ table.entries, ∃ m ∈ members, read? m.2 = some e.2 := by
  obtain ⟨members, entries, given, each, rfl⟩ := table?_eq_some_iff.1 read
  refine ⟨members, given, fun e listed => ?_⟩
  obtain ⟨m, member, taken⟩ :=
    exists_mem_of_forall₂ (mapM_eq_some_iff.1 each).flip (Table.mem_of_mem_ofList listed)
  obtain ⟨value, got, rfl⟩ := Option.map_eq_some_iff.1 taken
  exact ⟨m, member, got⟩

/-- A table of values is read back if its values are. -/
theorem table?_ofMembers {write : α → Tree} (reads : ∀ e ∈ table.entries, read? (write e.2) = some e.2) :
    table? read? (ofMembers (table.entries.map fun e => (e.1, write e.2))) = some table := by
  have entries : (table.entries.map fun e => (e.1, write e.2)).mapM
      (fun m => (read? m.2).map (m.1, ·)) = some table.entries := by
    rw [mapM_eq_some_iff, List.forall₂_map_left_iff]
    refine List.forall₂_same.2 fun e listed => ?_
    rw [reads e listed, Option.map_some]
  exact table?_eq_some_iff.2 ⟨_, _, members?_ofMembers _, entries, table.ofList_entries⟩

end Table

variable {members : List (String × Tree)} {name other : String} {value : Tree}

theorem only?_cons_of_forall_ne (absent : ∀ m ∈ members, m.1 ≠ name) :
    only? ((name, value) :: members) name = some value := by
  have none : members.filter (·.1 = name) = [] := by simpa [List.filter_eq_nil_iff] using absent
  rw [only?, List.filter_cons_of_pos (by simp), none]

theorem only?_cons_of_mem {m : String × Tree} (member : m ∈ members) (named : m.1 = name) :
    only? ((name, value) :: members) name = none := by
  have twice : m ∈ members.filter (·.1 = name) := List.mem_filter.2 ⟨member, by simp [named]⟩
  rw [only?, List.filter_cons_of_pos (by simp)]
  cases found : members.filter (·.1 = name) with
  | nil => simp [found] at twice
  | cons => rfl

theorem only?_cons_of_ne (different : other ≠ name) :
    only? ((other, value) :: members) name = only? members name := by
  rw [only?, List.filter_cons_of_neg (by simpa using different), only?]

theorem only?_of_nodup (distinct : (members.map Prod.fst).Nodup) {m : String × Tree}
    (member : m ∈ members) : only? members m.1 = some m.2 := by
  induction members with
  | nil => cases member
  | cons first members ih =>
    obtain ⟨new, others⟩ := List.nodup_cons.1 distinct
    rcases List.mem_cons.1 member with rfl | later
    · apply only?_cons_of_forall_ne
      intro other listed same
      exact new (same ▸ List.mem_map_of_mem listed)
    · have different : first.1 ≠ m.1 := by
        intro same
        exact new (same ▸ List.mem_map_of_mem later)
      rw [only?_cons_of_ne different, ih others later]

/-- A record is read back from the object of its fields. -/
theorem record?_ofMembers (members : List (String × Tree)) (distinct : (members.map Prod.fst).Nodup) :
    (ofMembers members).record? (members.map Prod.fst) = some (members.map Prod.snd) := by
  have fields : (members.map Prod.fst).mapM (only? members) = some (members.map Prod.snd) := by
    rw [mapM_eq_some_iff, List.forall₂_map_left_iff, List.forall₂_map_right_iff]
    exact List.forall₂_same.2 fun m member => only?_of_nodup distinct member
  show ((ofMembers members).members?.bind fun members' => (members.map Prod.fst).mapM (only? members')) = _
  rw [members?_ofMembers, Option.bind_some, fields]

end Json.Tree

end IntervalStats
