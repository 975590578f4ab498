import IntervalStats.Proofs.JsonSize
import IntervalStats.Proofs.JsonValue
import IntervalStats.Proofs.MemberOrder

/-!
# Settled values

A plain value in settled form has its members in order, each name once, and its numbers as values keep
them. Settling it again changes nothing, provided that its numbers are integers of a word
(`Json.Tree.plain?_of_plain?`). A text has no superfluous zeros, so integers that were read from it are in the
form in which integers are written (`Json.Tree.canonical_of_parse?`), and the settled form of a value reads
back from its own text.
-/

namespace IntervalStats

/-! ## Numerals that are read -/

theorem digitChar_of_isDigit {c : Char} (digit : c.isDigit = true) :
    Nat.digitChar (c.toNat - '0'.toNat) = c := by
  obtain ⟨least, greatest⟩ := Char.isDigit_iff_toNat.1 digit
  have zero : '0'.toNat = 48 := rfl
  have nine : '9'.toNat = 57 := rfl
  apply Char.toNat_inj.1
  rw [Nat.toNat_digitChar_of_lt_ten (by omega)]
  omega

/-- Digits without a zero in front are those of the number that they denote. The induction takes off the
last digit, as the division by ten does. -/
theorem decimalDigits_ofDecimalDigits {ds : List Char} (digits : ∀ c ∈ ds, c.isDigit = true)
    (nonempty : ds ≠ []) (lead : ds.head? ≠ some '0') : decimalDigits (ofDecimalDigits ds) = ds := by
  induction ds using List.reverseRecOn with
  | nil => exact absurd rfl nonempty
  | append_singleton ds d ih =>
    obtain ⟨others, last⟩ := List.forall_mem_append.1 digits
    have digit := last d (List.mem_singleton_self d)
    have least := (Char.isDigit_iff_toNat.1 digit).1
    have greatest := (Char.isDigit_iff_toNat.1 digit).2
    have nine : '9'.toNat = '0'.toNat + 9 := rfl
    have value : ofDecimalDigits (ds ++ [d]) = 10 * ofDecimalDigits ds + (d.toNat - '0'.toNat) := by
      rw [ofDecimalDigits, Nat.ofDigitChars_append, Nat.ofDigitChars_cons, Nat.ofDigitChars_nil,
        ofDecimalDigits]
    cases ds with
    | nil =>
      rw [value, decimalDigits, ofDecimalDigits, Nat.ofDigitChars_nil, Nat.toDigits_of_lt_base (by omega),
        Nat.mul_zero, Nat.zero_add, digitChar_of_isDigit digit, List.nil_append]
    | cons first rest =>
      have front := ih others (List.cons_ne_nil _ _) lead
      have positive : 0 < ofDecimalDigits (first :: rest) := by
        apply Nat.pos_of_ne_zero
        intro zero
        rw [zero] at front
        exact lead (by rw [← front]; rfl)
      have quotient : (10 * ofDecimalDigits (first :: rest) + (d.toNat - '0'.toNat)) / 10 =
          ofDecimalDigits (first :: rest) := by omega
      have remainder : (10 * ofDecimalDigits (first :: rest) + (d.toNat - '0'.toNat)) % 10 =
          d.toNat - '0'.toNat := by omega
      rw [value, decimalDigits, Nat.toDigits_of_base_le (by decide) (by omega), quotient, remainder,
        digitChar_of_isDigit digit]
      exact congrArg (· ++ [d]) front

namespace Json

theorem exists_eq_decimalDigits {cs ds rest : List Char} (read : readWhole? cs = some (ds, rest)) :
    ∃ n, ds = decimalDigits n := by
  unfold readWhole? at read
  split at read
  · cases read
    exact ⟨0, rfl⟩
  next notZero =>
    unfold readDigits? at read
    split at read
    · cases read
    next nonempty =>
      cases read
      refine ⟨ofDecimalDigits _, (decimalDigits_ofDecimalDigits ?_ ?_ ?_).symm⟩
      · exact fun c member => List.mem_takeWhile_imp member
      · simpa [spanDigits] using nonempty
      · intro zero
        rw [List.head?_takeWhile, Option.filter_eq_some_iff] at zero
        obtain ⟨rest, starts⟩ := List.head?_eq_some_iff.1 zero.1
        exact notZero rest starts

/-- An integer that is read has no superfluous zeros. -/
theorem canonical_of_readNumeral? {cs rest : List Char} {n : Numeral}
    (read : readNumeral? cs = some (n, rest)) (integer : n.isInteger = true) : n.Canonical := by
  have magnitude {negative : Bool} {cs : List Char}
      (read : readMagnitude? negative cs = some (n, rest)) : n.Canonical := by
    simp only [readMagnitude?, Option.bind_eq_bind, Option.bind_eq_some_iff, Prod.exists] at read
    obtain ⟨whole, _, readWhole, fraction, _, _, exponent, _, _, same⟩ := read
    obtain ⟨m, rfl⟩ := exists_eq_decimalDigits readWhole
    cases same
    simp only [Numeral.isInteger, Bool.and_eq_true, Option.isNone_iff_eq_none] at integer
    obtain ⟨rfl, rfl⟩ := integer
    exact .intro negative m
  unfold readNumeral? at read
  split at read
  · exact magnitude read
  · exact magnitude read

theorem Token.readNumeral?_of_read? {cs rest : List Char} {n : Numeral}
    (read : read? cs = some (number n, rest)) : readNumeral? cs = some (n, rest) := by
  unfold read? at read
  split at read
  case h_10 =>
    obtain ⟨⟨pieces, left⟩, -, same⟩ := Option.map_eq_some_iff.1 read
    cases same
  case h_11 =>
    obtain ⟨⟨m, left⟩, taken, same⟩ := Option.map_eq_some_iff.1 read
    cases same
    exact taken
  all_goals cases read

theorem Scans.exists_read {cs : List Char} {ts : List Token} {t : Token} (scanned : Scans cs ts)
    (member : t ∈ ts) : ∃ cs' rest, Token.read? cs' = some (t, rest) := by
  induction scanned with
  | nil => cases member
  | cons read _ ih =>
    rcases List.mem_cons.1 member with rfl | later
    · exact ⟨_, _, read⟩
    · exact ih later

/-! ## Numbers of a tree -/

namespace Tree

/-- The numeral stands in the tree, at whatever depth. -/
inductive HasNumber (n : Numeral) : Tree → Prop where
  | number : HasNumber n (number n)
  | item {item : Tree} {items : List Tree} (listed : item ∈ items) (inner : HasNumber n item) :
      HasNumber n (array items)
  | member {m : Option String × Tree} {members : List (Option String × Tree)} (listed : m ∈ members)
      (inner : HasNumber n m.2) : HasNumber n (object members)

variable {t u : Tree} {n : Numeral}

theorem HasNumber.mem_tokens (has : t.HasNumber n) : .number n ∈ t.tokens := by
  induction has with
  | number => rw [tokens]; exact List.mem_singleton_self _
  | item listed _ ih =>
    rw [tokens, List.cons_append]
    apply List.mem_cons_of_mem
    exact List.mem_append_left _ ((tokens_sublist_itemTokens listed).subset ih)
  | member listed _ ih =>
    rw [tokens, List.cons_append]
    apply List.mem_cons_of_mem
    apply List.mem_append_left
    exact (tokens_sublist_memberTokens listed).subset (List.mem_cons_of_mem _ ih)

/-- The integers of a tree that was read are in the form in which integers are written. -/
theorem canonical_of_parse? {cs : List Char} (parsed : parse? cs = some t) (has : t.HasNumber n)
    (integer : n.isInteger = true) : n.Canonical := by
  obtain ⟨_, _, read⟩ := (scans_of_parse? parsed).exists_read has.mem_tokens
  exact canonical_of_readNumeral? (Token.readNumeral?_of_read? read) integer

theorem canonical_of_hasNumber (each : ∀ n, t.HasNumber n → n.Canonical) : t.Canonical := by
  induction t using inductionOn with
  | null => exact .null
  | bool b => exact .bool b
  | number n => exact .number (each n .number)
  | text s => exact .text s
  | array items ih => exact .array fun item listed => ih item listed fun n has => each n (.item listed has)
  | object members ih => exact .object fun m listed => ih m listed fun n has => each n (.member listed has)

theorem HasNumber.of_members? {members : List (String × Tree)} {m : String × Tree}
    (read : t.members? = some members) (listed : m ∈ members) (has : m.2.HasNumber n) : t.HasNumber n := by
  rw [eq_ofMembers_of_members? read, ofMembers]
  exact .member (List.mem_map_of_mem listed) has

theorem mem_of_only? {members : List (String × Tree)} {name : String} {value : Tree}
    (found : only? members name = some value) : (name, value) ∈ members := by
  unfold only? at found
  split at found
  next m single =>
    have kept : m ∈ members.filter (·.1 = name) := by rw [single]; exact List.mem_singleton_self m
    obtain ⟨member, named⟩ := List.mem_filter.1 kept
    cases found
    rw [← of_decide_eq_true named]
    exact member
  next => cases found

theorem HasNumber.of_record? {names : List String} {fields : List Tree} {field : Tree}
    (read : t.record? names = some fields) (listed : field ∈ fields) (has : field.HasNumber n) :
    t.HasNumber n := by
  unfold record? at read
  split at read
  · split at read
    · cases read
      exact .item listed has
    · cases read
  · obtain ⟨members, given, found⟩ := Option.bind_eq_some_iff.1 read
    obtain ⟨name, -, only⟩ := exists_mem_of_forall₂ (mapM_eq_some_iff.1 found).flip listed
    exact .of_members? given (mem_of_only? only) has

end Tree

end Json

/-! ## Settling -/

/-- An integer, written without a point and a power of ten, that a signed or an unsigned word holds. Zero
has no sign. -/
def Numeral.IsWord (n : Numeral) : Prop :=
  n.isInteger = true ∧
    if n.negative then 0 < n.magnitude ∧ n.magnitude ≤ 0x8000000000000000
    else n.magnitude < 0x10000000000000000

instance : DecidablePred Numeral.IsWord := fun _ =>
  inferInstanceAs (Decidable (_ ∧ _))

theorem Numeral.settle?_of_isWord {n : Numeral} (word : n.IsWord) : n.settle? = some n := by
  obtain ⟨integer, range⟩ := word
  have kept : (n.unsigned?.isSome || n.signed?.isSome) = true := by
    cases sign : n.negative with
    | true =>
      rw [sign, if_pos rfl] at range
      simp [signed?, integer, sign, range]
    | false =>
      rw [sign, if_neg Bool.false_ne_true] at range
      simp [unsigned?, integer, sign, UInt64.size, range]
  rw [settle?, if_pos kept]

namespace Json.Tree

variable {t u : Tree} {room : Nat}

theorem exists_of_plainItems? {items settled : List Tree} (read : plainItems? room items = some settled) :
    ∀ v ∈ settled, ∃ item ∈ items, plain? room item = some v := by
  rw [plainItems?_eq_mapM, mapM_eq_some_iff] at read
  intro v listed
  exact exists_mem_of_forall₂ read.flip listed

theorem exists_of_plainMembers? {members : List (Option String × Tree)} {entries : List (String × Tree)}
    (read : plainMembers? room members = some entries) :
    ∀ e ∈ entries, ∃ m ∈ members, m.1 = some e.1 ∧ plain? room m.2 = some e.2 := by
  rw [plainMembers?_eq_mapM, mapM_eq_some_iff] at read
  intro e listed
  obtain ⟨m, member, given⟩ := exists_mem_of_forall₂ read.flip listed
  obtain ⟨name, named, given⟩ := Option.bind_eq_some_iff.1 given
  obtain ⟨value, settled, rfl⟩ := Option.map_eq_some_iff.1 given
  exact ⟨m, member, named, settled⟩

theorem plain?_array_self {items : List Tree} (inside : room ≠ 0)
    (each : ∀ item ∈ items, plain? (room - 1) item = some item) :
    plain? room (array items) = some (array items) := by
  have read : items.mapM (plain? (room - 1)) = some items :=
    mapM_eq_some_iff.2 (List.forall₂_same.2 each)
  rw [plain?, if_neg inside, plainItems?_eq_mapM, read, Option.map_some]

theorem plain?_table_self {table : Table Tree} (inside : room ≠ 0)
    (each : ∀ e ∈ table.entries, plain? (room - 1) e.2 = some e.2) :
    plain? room (ofMembers table.entries) = some (ofMembers table.entries) := by
  have read : plainMembers? (room - 1) (table.entries.map fun e => (some e.1, e.2)) =
      some table.entries := by
    rw [plainMembers?_eq_mapM, mapM_eq_some_iff, List.forall₂_map_left_iff]
    refine List.forall₂_same.2 fun e listed => ?_
    rw [each e listed]
    rfl
  rw [ofMembers, plain?, if_neg inside, read, Option.map_some, Table.ofList_entries, ofMembers]

/-- The settled form of a value whose numbers are words is settled, and it has no other numbers. -/
theorem plain?_of_plain? (read : plain? room t = some u) (words : ∀ n, t.HasNumber n → n.IsWord) :
    plain? room u = some u ∧ ∀ n, u.HasNumber n → t.HasNumber n := by
  induction t using inductionOn generalizing room u with
  | null =>
    rw [plain?] at read
    cases read
    exact ⟨by rw [plain?], fun _ has => has⟩
  | bool b =>
    rw [plain?] at read
    cases read
    exact ⟨by rw [plain?], fun _ has => has⟩
  | number n =>
    rw [plain?, Numeral.settle?_of_isWord (words n .number)] at read
    cases read
    exact ⟨by rw [plain?, Numeral.settle?_of_isWord (words n .number), Option.map_some], fun _ has => has⟩
  | text s =>
    rw [plain?] at read
    obtain ⟨content, rfl, rfl⟩ := Option.map_eq_some_iff.1 read
    exact ⟨by rw [ofText, plain?, Option.map_some, ofText], fun _ has => has⟩
  | array items ih =>
    rw [plain?] at read
    split at read
    · cases read
    next inside =>
      obtain ⟨settled, settles, rfl⟩ := Option.map_eq_some_iff.1 read
      have origin := exists_of_plainItems? settles
      constructor
      · apply plain?_array_self inside
        intro v listed
        obtain ⟨item, member, given⟩ := origin v listed
        exact (ih item member given fun n has => words n (.item member has)).1
      · intro n has
        cases has with
        | item listed inner =>
          obtain ⟨item, member, given⟩ := origin _ listed
          have within := (ih item member given fun n has => words n (.item member has)).2
          exact .item member (within n inner)
  | object members ih =>
    rw [plain?] at read
    split at read
    · cases read
    next inside =>
      obtain ⟨entries, settles, rfl⟩ := Option.map_eq_some_iff.1 read
      have origin := exists_of_plainMembers? settles
      constructor
      · apply plain?_table_self inside
        intro e listed
        obtain ⟨m, member, -, given⟩ := origin e (Table.mem_of_mem_ofList listed)
        exact (ih m member given fun n has => words n (.member member has)).1
      · intro n has
        cases has with
        | member listed inner =>
          obtain ⟨e, kept, rfl⟩ := List.mem_map.1 listed
          obtain ⟨m, member, -, given⟩ := origin e (Table.mem_of_mem_ofList kept)
          have within := (ih m member given fun n has => words n (.member member has)).2
          exact .member member (within n inner)

end Json.Tree

end IntervalStats
