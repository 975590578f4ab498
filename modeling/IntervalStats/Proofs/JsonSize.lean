import IntervalStats.Proofs.JsonReading

/-!
# Sizes of texts and trees

How much a tree can hold depends on the bytes of the text that it was read from. Every token takes a byte,
and a string takes the bytes of its text besides (`Token.bytes_of_read?`); an escape is never shorter than
the character that it names. So no list and no name of a tree is longer than its text (`Tree.bytes_le`).
-/

namespace IntervalStats.Json

/-! ## Characters -/

/-- The number of UTF-8 bytes of a text. -/
def byteCount (cs : List Char) : Nat :=
  (String.ofList cs).utf8ByteSize

theorem byteCount_cons (c : Char) (cs : List Char) : byteCount (c :: cs) = c.utf8Size + byteCount cs := by
  rw [byteCount, String.ofList_cons, String.utf8ByteSize_append, String.utf8ByteSize_singleton, byteCount]

theorem byteCount_append (left right : List Char) :
    byteCount (left ++ right) = byteCount left + byteCount right := by
  rw [byteCount, String.ofList_append, String.utf8ByteSize_append, byteCount, byteCount]

theorem byteCount_le (cs : List Char) : byteCount cs ≤ 4 * cs.length := by
  induction cs with
  | nil => rfl
  | cons c cs ih =>
    have := c.utf8Size_le_four
    rw [byteCount_cons, List.length_cons]
    omega

theorem byteCount_le_of_suffix {cs rest : List Char} (suffix : rest <:+ cs) :
    byteCount rest ≤ byteCount cs := by
  obtain ⟨front, rfl⟩ := suffix
  rw [byteCount_append]
  omega

theorem byteCount_lt_of_suffix {cs rest : List Char} (suffix : rest <:+ cs)
    (shorter : rest.length < cs.length) : byteCount rest < byteCount cs := by
  obtain ⟨front, rfl⟩ := suffix
  cases front with
  | nil => simp at shorter
  | cons c front =>
    have := c.utf8Size_pos
    rw [List.cons_append, byteCount_cons, byteCount_append]
    omega

/-! ## Strings -/

/-- The fewest bytes that a piece of a string can be read from. -/
def Piece.bytes : Piece → Nat
  | char c => c.utf8Size
  | unit _ => 6

def pieceBytes : List Piece → Nat
  | [] => 0
  | piece :: rest => piece.bytes + pieceBytes rest

theorem byteCount_of_joinPieces? {pieces : List Piece} {s : List Char}
    (joined : joinPieces? pieces = some s) : byteCount s ≤ pieceBytes pieces := by
  -- A unit takes six characters to write, and no character has more than four bytes.
  have add {c : Char} {rest : List Piece} {s : List Char}
      (ih : ∀ {s}, joinPieces? rest = some s → byteCount s ≤ pieceBytes rest)
      (joined : (joinPieces? rest).map (c :: ·) = some s) :
      byteCount s ≤ 6 + pieceBytes rest := by
    obtain ⟨others, read, rfl⟩ := Option.map_eq_some_iff.1 joined
    have := ih read
    have := c.utf8Size_le_four
    rw [byteCount_cons]
    omega
  fun_induction joinPieces? pieces generalizing s with
  | case1 =>
    cases joined
    simp [byteCount]
  | case2 c rest ih =>
    obtain ⟨others, read, rfl⟩ := Option.map_eq_some_iff.1 joined
    have := ih read
    simp only [byteCount_cons, pieceBytes, Piece.bytes]
    omega
  | case3 high low rest _ _ ih =>
    have := add ih joined
    simp only [pieceBytes, Piece.bytes]
    omega
  | case4 => cases joined
  | case5 => cases joined
  | case6 high low rest _ _ ih =>
    have := add ih joined
    simp only [pieceBytes, Piece.bytes] at this ⊢
    omega
  | case7 => cases joined
  | case8 n rest _ _ ih => exact add ih joined

theorem utf8Size_of_shortEscape? {c letter : Char} (escaped : shortEscape? c = some letter) :
    letter.utf8Size = 1 := by
  unfold shortEscape? at escaped
  split at escaped <;> cases escaped <;> rfl

theorem bytes_of_readPieces? {cs rest : List Char} {pieces : List Piece}
    (read : readPieces? cs = some (pieces, rest)) :
    pieceBytes pieces + byteCount rest < byteCount cs := by
  fun_induction readPieces? cs generalizing pieces rest with
  | case1 => cases read
  | case2 rest =>
    cases read
    have := ('"').utf8Size_pos
    rw [byteCount_cons, pieceBytes]
    omega
  | case3 a b c d cs n others left taken _ ih =>
    cases read
    have := ih taken
    have := ('\\').utf8Size_pos
    have := ('u').utf8Size_pos
    have := a.utf8Size_pos
    have := b.utf8Size_pos
    have := c.utf8Size_pos
    have := d.utf8Size_pos
    simp only [byteCount_cons, pieceBytes, Piece.bytes]
    omega
  | case4 => cases read
  | case5 c cs _ letter others left taken escaped ih =>
    cases read
    have := ih taken
    have := utf8Size_of_shortEscape? escaped
    have := ('\\').utf8Size_pos
    have := c.utf8Size_pos
    simp only [byteCount_cons, pieceBytes, Piece.bytes]
    omega
  | case6 => cases read
  | case7 => cases read
  | case8 c cs _ _ _ _ others left taken ih =>
    cases read
    have := ih taken
    simp only [byteCount_cons, pieceBytes, Piece.bytes]
    omega
  | case9 => cases read

/-! ## Numerals -/

theorem suffix_of_readDigits? {cs digits rest : List Char} (read : readDigits? cs = some (digits, rest)) :
    rest <:+ cs := by
  unfold readDigits? at read
  split at read
  · cases read
  · cases read
    exact List.dropWhile_suffix _

theorem suffix_of_readWhole? {cs digits rest : List Char} (read : readWhole? cs = some (digits, rest)) :
    rest <:+ cs := by
  unfold readWhole? at read
  split at read
  · cases read
    exact List.suffix_cons _ _
  · exact suffix_of_readDigits? read

theorem suffix_of_readFraction? {cs rest : List Char} {fraction : Option (List Char)}
    (read : readFraction? cs = some (fraction, rest)) : rest <:+ cs := by
  unfold readFraction? at read
  split at read
  · obtain ⟨⟨digits, left⟩, taken, same⟩ := Option.map_eq_some_iff.1 read
    cases same
    exact (suffix_of_readDigits? taken).trans (List.suffix_cons _ _)
  · cases read
    exact List.suffix_rfl

theorem suffix_of_readPower? {cs rest : List Char} {power : ExponentSign × List Char}
    (read : readPower? cs = some (power, rest)) : rest <:+ cs := by
  unfold readPower? at read
  split at read
  all_goals
    obtain ⟨⟨digits, left⟩, taken, same⟩ := Option.map_eq_some_iff.1 read
    cases same
  · exact (suffix_of_readDigits? taken).trans (List.suffix_cons _ _)
  · exact (suffix_of_readDigits? taken).trans (List.suffix_cons _ _)
  · exact suffix_of_readDigits? taken

theorem suffix_of_readExponent? {cs rest : List Char} {exponent : Option (ExponentSign × List Char)}
    (read : readExponent? cs = some (exponent, rest)) : rest <:+ cs := by
  unfold readExponent? at read
  split at read
  · obtain ⟨⟨power, left⟩, taken, same⟩ := Option.map_eq_some_iff.1 read
    cases same
    exact (suffix_of_readPower? taken).trans (List.suffix_cons _ _)
  · obtain ⟨⟨power, left⟩, taken, same⟩ := Option.map_eq_some_iff.1 read
    cases same
    exact (suffix_of_readPower? taken).trans (List.suffix_cons _ _)
  · cases read
    exact List.suffix_rfl

theorem suffix_of_readMagnitude? {negative : Bool} {cs rest : List Char} {n : Numeral}
    (read : readMagnitude? negative cs = some (n, rest)) : rest <:+ cs := by
  simp only [readMagnitude?, Option.bind_eq_bind, Option.bind_eq_some_iff, Prod.exists] at read
  obtain ⟨whole, afterWhole, readWhole, fraction, afterFraction, readFraction, exponent, afterExponent,
    readExponent, same⟩ := read
  cases same
  exact (suffix_of_readExponent? readExponent).trans
    ((suffix_of_readFraction? readFraction).trans (suffix_of_readWhole? readWhole))

theorem suffix_of_readNumeral? {cs rest : List Char} {n : Numeral}
    (read : readNumeral? cs = some (n, rest)) : rest <:+ cs := by
  unfold readNumeral? at read
  split at read
  · exact (suffix_of_readMagnitude? read).trans (List.suffix_cons _ _)
  · exact suffix_of_readMagnitude? read

/-! ## Tokens -/

/-- The fewest bytes that a token can be read from: one, and for a string those of its text besides. -/
def Token.bytes : Token → Nat
  | text (some s) => s.utf8ByteSize + 1
  | _ => 1

def tokenBytes : List Token → Nat
  | [] => 0
  | t :: rest => t.bytes + tokenBytes rest

theorem Token.bytes_of_read? {cs rest : List Char} {t : Token} (read : read? cs = some (t, rest)) :
    t.bytes + byteCount rest ≤ byteCount cs := by
  have shorter := length_read?_lt read
  unfold read? at read
  split at read
  case h_10 cs =>
    obtain ⟨⟨pieces, left⟩, taken, same⟩ := Option.map_eq_some_iff.1 read
    cases same
    have := bytes_of_readPieces? taken
    have := ('"').utf8Size_pos
    rw [byteCount_cons]
    cases joined : joinPieces? pieces with
    | none =>
      simp only [Option.map_none, bytes]
      omega
    | some s =>
      have : (String.ofList s).utf8ByteSize ≤ _ := byteCount_of_joinPieces? joined
      simp only [Option.map_some, bytes]
      omega
  case h_11 =>
    obtain ⟨⟨n, left⟩, taken, same⟩ := Option.map_eq_some_iff.1 read
    cases same
    have := byteCount_lt_of_suffix (suffix_of_readNumeral? taken) shorter
    simp only [bytes]
    omega
  all_goals
    cases read
    have := byteCount_lt_of_suffix (by simp [List.suffix_cons_iff]) shorter
    simp only [bytes]
    omega

/-- The tokens of a text take no more than its bytes. -/
theorem Scans.tokenBytes_le {cs : List Char} {ts : List Token} (scanned : Scans cs ts) :
    tokenBytes ts ≤ byteCount cs := by
  induction scanned with
  | nil => exact Nat.zero_le _
  | @cons cs rest t ts read _ ih =>
    have := Token.bytes_of_read? read
    have := byteCount_le_of_suffix (List.dropWhile_suffix isSpace (l := cs))
    rw [tokenBytes]
    omega

theorem tokenBytes_le_of_sublist {ts us : List Token} (sub : ts.Sublist us) : tokenBytes ts ≤ tokenBytes us := by
  induction sub with
  | slnil => exact Nat.le_refl _
  | cons t _ ih => exact Nat.le_trans ih (Nat.le_add_left ..)
  | cons_cons t _ ih => exact Nat.add_le_add_left ih _

theorem length_le_tokenBytes (ts : List Token) : ts.length ≤ tokenBytes ts := by
  induction ts with
  | nil => exact Nat.le_refl _
  | cons t ts ih =>
    have : 1 ≤ t.bytes := by
      unfold Token.bytes
      split <;> omega
    rw [List.length_cons, tokenBytes]
    omega

/-! ## Trees -/

namespace Tree

/-- The fewest bytes that a tree can be read from. -/
def bytes (t : Tree) : Nat :=
  tokenBytes t.tokens

theorem bytes_le {cs : List Char} {t : Tree} (parsed : parse? cs = some t) : t.bytes ≤ byteCount cs :=
  (scans_of_parse? parsed).tokenBytes_le

theorem tokens_sublist_itemTokens {item : Tree} {items : List Tree} (member : item ∈ items) :
    item.tokens.Sublist (itemTokens items) := by
  induction items with
  | nil => cases member
  | cons first items ih =>
    cases items with
    | nil =>
      obtain rfl := List.mem_singleton.1 member
      rw [itemTokens]
    | cons next items =>
      rw [itemTokens_cons_cons]
      rcases List.mem_cons.1 member with rfl | later
      · exact List.sublist_append_left _ _
      · exact ((ih later).cons _).trans (List.sublist_append_right _ _)

theorem length_le_length_itemTokens (items : List Tree) : items.length ≤ (itemTokens items).length := by
  induction items with
  | nil => exact Nat.zero_le _
  | cons first items ih =>
    obtain ⟨t, ts, split, -⟩ := first.exists_tokens_eq_cons
    cases items with
    | nil => simp [itemTokens, split]
    | cons next items =>
      simp only [itemTokens_cons_cons, List.length_append, List.length_cons] at ih ⊢
      omega

theorem tokens_sublist_memberTokens {m : Option String × Tree} {members : List (Option String × Tree)}
    (member : m ∈ members) : (.text m.1 :: m.2.tokens).Sublist (memberTokens members) := by
  induction members with
  | nil => cases member
  | cons first members ih =>
    obtain ⟨name, value⟩ := first
    cases members with
    | nil =>
      obtain rfl := List.mem_singleton.1 member
      rw [memberTokens]
      exact (List.sublist_cons_self _ _).cons_cons _
    | cons next members =>
      rw [memberTokens_cons_cons]
      rcases List.mem_cons.1 member with rfl | later
      · exact (((List.sublist_append_left _ _).cons _).cons_cons _)
      · exact ((ih later).cons _).trans (List.sublist_append_right _ _)

theorem length_le_length_memberTokens (members : List (Option String × Tree)) :
    members.length ≤ (memberTokens members).length := by
  induction members with
  | nil => exact Nat.zero_le _
  | cons first members ih =>
    obtain ⟨name, value⟩ := first
    cases members with
    | nil => simp [memberTokens]
    | cons next members =>
      simp only [memberTokens_cons_cons, List.length_append, List.length_cons] at ih ⊢
      omega

theorem bytes_le_of_mem_items {item : Tree} {items : List Tree} (member : item ∈ items) :
    item.bytes ≤ (array items).bytes := by
  apply tokenBytes_le_of_sublist
  rw [tokens, List.cons_append]
  exact ((tokens_sublist_itemTokens member).trans (List.sublist_append_left _ _)).cons _

theorem length_items_le (items : List Tree) : items.length ≤ (array items).bytes := by
  have counted := length_le_tokenBytes (array items).tokens
  have listed := length_le_length_itemTokens items
  rw [tokens, List.length_append, List.length_cons, ← tokens] at counted
  rw [bytes]
  omega

theorem bytes_le_of_mem_members {name : String} {value : Tree} {members : List (Option String × Tree)}
    (member : (some name, value) ∈ members) :
    name.utf8ByteSize + value.bytes ≤ (object members).bytes := by
  have within : name.utf8ByteSize + 1 + value.bytes ≤ tokenBytes (memberTokens members) :=
    tokenBytes_le_of_sublist (tokens_sublist_memberTokens member)
  have enclosed : tokenBytes (memberTokens members) ≤ (object members).bytes := by
    apply tokenBytes_le_of_sublist
    rw [tokens, List.cons_append]
    exact (List.sublist_append_left _ _).cons _
  omega

theorem length_members_le (members : List (Option String × Tree)) :
    members.length ≤ (object members).bytes := by
  have counted := length_le_tokenBytes (object members).tokens
  have listed := length_le_length_memberTokens members
  rw [tokens, List.length_append, List.length_cons, ← tokens] at counted
  rw [bytes]
  omega

end Tree

end IntervalStats.Json
