import IntervalStats.Json.Token

/-!
# JSON trees

JSON text as a tree. The tree keeps what the text says: numerals as they are written, the members of
an object in their order and with repeated names, and strings that denote no text. What a tree means
to a reader of values is said elsewhere.

`Tree.parse?` reads a text. Its state is the list of the containers that are still open, innermost
first, so that the depth of the text is bounded by nothing but its length. `Tree.compact` and
`Tree.pretty` write a tree without blanks and in indented lines.
-/

namespace IntervalStats.Json

inductive Tree where
  | null
  | bool (value : Bool)
  | number (value : Numeral)
  | text (value : Option String)
  | array (items : List Tree)
  | object (members : List (Option String × Tree))

/-! ## Reading -/

/-- A container that is still open, with what it holds so far, the last first. An object also has the
name of the member whose value is being read. -/
inductive Frame where
  | array (items : List Tree)
  | object (members : List (Option String × Tree)) (name : Option String)

/-- What may come next. -/
inductive Expected where
  /-- A value. -/
  | value
  /-- The first item of an array, or its end. -/
  | firstItem
  /-- The first name of an object, or its end. -/
  | firstName
  /-- A name, after a comma. -/
  | name (members : List (Option String × Tree))
  /-- The colon after a name. -/
  | colon (members : List (Option String × Tree)) (name : Option String)
  /-- Whatever may follow a finished value. -/
  | next (value : Tree)

/-- A reader of tokens: the open containers and what may come next. -/
structure Reader where
  frames : List Frame
  expected : Expected

namespace Reader

def start : Reader := ⟨[], .value⟩

/-- A value is finished. -/
def deliver (frames : List Frame) (value : Tree) : Reader :=
  ⟨frames, .next value⟩

/-- Takes a token where a value must begin. -/
def beginValue (frames : List Frame) : Token → Option Reader
  | .null => some (deliver frames .null)
  | .bool b => some (deliver frames (.bool b))
  | .number n => some (deliver frames (.number n))
  | .text s => some (deliver frames (.text s))
  | .openBracket => some ⟨frames, .firstItem⟩
  | .openBrace => some ⟨frames, .firstName⟩
  | _ => none

/-- Takes a token after a finished value. -/
def afterValue (value : Tree) : List Frame → Token → Option Reader
  | .array items :: frames, .comma => some ⟨.array (value :: items) :: frames, .value⟩
  | .array items :: frames, .closeBracket =>
    some (deliver frames (.array (value :: items).reverse))
  | .object members name :: frames, .comma => some ⟨frames, .name ((name, value) :: members)⟩
  | .object members name :: frames, .closeBrace =>
    some (deliver frames (.object ((name, value) :: members).reverse))
  | _, _ => none

/-- Takes the next token. -/
def step (r : Reader) (t : Token) : Option Reader :=
  match r.expected, t with
  | .value, t => beginValue r.frames t
  | .firstItem, .closeBracket => some (deliver r.frames (.array []))
  | .firstItem, t => beginValue (.array [] :: r.frames) t
  | .firstName, .closeBrace => some (deliver r.frames (.object []))
  | .firstName, .text name => some ⟨r.frames, .colon [] name⟩
  | .name members, .text name => some ⟨r.frames, .colon members name⟩
  | .colon members name, .colon => some ⟨.object members name :: r.frames, .value⟩
  | .next value, t => afterValue value r.frames t
  | _, _ => none

/-- The tree, if the reader is at the end of one. -/
def finish? (r : Reader) : Option Tree :=
  match r.frames, r.expected with
  | [], .next value => some value
  | _, _ => none

end Reader

/-- The blanks that may stand between tokens. -/
def isSpace (c : Char) : Bool :=
  c = ' ' || c = '\t' || c = '\n' || c = '\r'

/-- Reads all tokens of a text. -/
def Reader.run? (r : Reader) (cs : List Char) : Option Reader :=
  if (cs.dropWhile isSpace).isEmpty then some r
  else
    match _read : Token.read? (cs.dropWhile isSpace) with
    | none => none
    | some (t, rest) =>
      match r.step t with
      | none => none
      | some next => next.run? rest
termination_by cs.length
decreasing_by
  have := Token.length_read?_lt _read
  have := (List.dropWhile_sublist (p := isSpace) (l := cs)).length_le
  omega

/-- Reads a text that holds one value and blanks. -/
def Tree.parse? (cs : List Char) : Option Tree :=
  (Reader.start.run? cs).bind Reader.finish?

/-! ## Writing -/

namespace Tree

mutual

/-- The tokens of a tree. -/
def tokens : Tree → List Token
  | null => [.null]
  | bool b => [.bool b]
  | number n => [.number n]
  | text s => [.text s]
  | array items => .openBracket :: itemTokens items ++ [.closeBracket]
  | object members => .openBrace :: memberTokens members ++ [.closeBrace]

/-- The tokens of the items of an array, with commas. -/
def itemTokens : List Tree → List Token
  | [] => []
  | [item] => item.tokens
  | item :: rest => item.tokens ++ .comma :: itemTokens rest

/-- The tokens of the members of an object, with colons and commas. -/
def memberTokens : List (Option String × Tree) → List Token
  | [] => []
  | [(name, value)] => .text name :: .colon :: value.tokens
  | (name, value) :: rest => .text name :: .colon :: value.tokens ++ .comma :: memberTokens rest

end

/-- The text of a tree, without blanks. -/
def compact (t : Tree) : List Char :=
  t.tokens.flatMap Token.write

/-- A new line at a depth. -/
def newLine (depth : Nat) : List Char :=
  '\n' :: List.replicate (2 * depth) ' '

mutual

/-- The text of a tree in lines, each item and member on its own, indented by two spaces for each
container around it. -/
def pretty (depth : Nat) : Tree → List Char
  | array [] => ['[', ']']
  | array items => '[' :: prettyItems (depth + 1) items ++ newLine depth ++ [']']
  | object [] => ['\x7b', '\x7d']
  | object members => '\x7b' :: prettyMembers (depth + 1) members ++ newLine depth ++ ['\x7d']
  | null => Token.null.write
  | bool b => (Token.bool b).write
  | number n => (Token.number n).write
  | text s => (Token.text s).write

def prettyItems (depth : Nat) : List Tree → List Char
  | [] => []
  | [item] => newLine depth ++ item.pretty depth
  | item :: rest => newLine depth ++ item.pretty depth ++ ',' :: prettyItems depth rest

def prettyMembers (depth : Nat) : List (Option String × Tree) → List Char
  | [] => []
  | [(name, value)] => newLine depth ++ writeText name ++ ':' :: ' ' :: value.pretty depth
  | (name, value) :: rest =>
    newLine depth ++ writeText name ++ ':' :: ' ' :: value.pretty depth
      ++ ',' :: prettyMembers depth rest

end

/-- The tree of a text. -/
def ofText (s : String) : Tree := text (some s)

/-- The tree of an integer. -/
def ofInt (n : Int) : Tree := number (.ofInt n)

/-- An object of named members. -/
def ofMembers (members : List (String × Tree)) : Tree :=
  object (members.map fun m => (some m.1, m.2))

end Tree

end IntervalStats.Json
