import IntervalStats.Decimal.Numeral
import IntervalStats.Text.Blank
import IntervalStats.Text.Pieces

/-!
# Operation modes

Every interval of a trace was sampled in an operation mode, a signed number. A mode set says which
intervals count: all of them, or those of finitely many modes, kept in increasing order. A mode set
is written `*` or as the modes with commas between them, and read from such a list with blanks and
empty pieces allowed.
-/

namespace IntervalStats

/-- Why a text is not a signed word. -/
inductive IntegerError where
  | invalidDigit
  | tooLarge
  | tooSmall
  deriving DecidableEq, Repr

/-- The wording of the reason. -/
def IntegerError.message : IntegerError → String
  | invalidDigit => "invalid digit found in string"
  | tooLarge => "number too large to fit in target type"
  | tooSmall => "number too small to fit in target type"

/-- Reads digits from the left on top of a magnitude; the first character that is no digit, or digit
that passes the limit, decides the error. -/
def readMagnitude (limit : Nat) (excess : IntegerError) : Nat → List Char → Except IntegerError Nat
  | magnitude, [] => .ok magnitude
  | magnitude, c :: rest =>
    if !c.isDigit then .error .invalidDigit
    else
      let next := magnitude * 10 + (c.toNat - '0'.toNat)
      if limit < next then .error excess else readMagnitude limit excess next rest

/-- Reads a signed word: at most one sign, then at least one digit. -/
def readWord : List Char → Except IntegerError Int64
  | [] | ['+'] | ['-'] => .error .invalidDigit
  | '-' :: ds => (readMagnitude 0x8000000000000000 .tooSmall 0 ds).map fun (n : Nat) => Int64.ofInt (-n)
  | '+' :: ds => (readMagnitude 0x7fffffffffffffff .tooLarge 0 ds).map fun (n : Nat) => Int64.ofInt n
  | ds => (readMagnitude 0x7fffffffffffffff .tooLarge 0 ds).map fun (n : Nat) => Int64.ofInt n

/-- Puts a mode into modes in increasing order, unless it is there. -/
def insertMode (mode : Int64) : List Int64 → List Int64
  | [] => [mode]
  | m :: rest =>
    if mode < m then mode :: m :: rest
    else if m < mode then m :: insertMode mode rest
    else m :: rest

theorem mem_insertMode {mode m : Int64} {modes : List Int64} :
    m ∈ insertMode mode modes ↔ m = mode ∨ m ∈ modes := by
  induction modes with
  | nil => simp [insertMode]
  | cons head rest ih =>
    rw [insertMode]
    split
    · simp
    · rename_i notLt
      split
      · simp only [List.mem_cons, ih]
        exact or_left_comm
      · rename_i notGt
        have same : mode = head :=
          Int64.le_antisymm (Int64.not_lt.1 notGt) (Int64.not_lt.1 notLt)
        simp [same]

theorem pairwise_insertMode (mode : Int64) {modes : List Int64} (h : modes.Pairwise (· < ·)) :
    (insertMode mode modes).Pairwise (· < ·) := by
  induction modes with
  | nil => exact List.pairwise_singleton ..
  | cons head rest ih =>
    obtain ⟨hhead, hrest⟩ := List.pairwise_cons.1 h
    rw [insertMode]
    split
    · rename_i lt
      refine List.pairwise_cons.2 ⟨fun m hm => ?_, h⟩
      rcases List.mem_cons.1 hm with rfl | hm
      · exact lt
      · exact Int64.lt_trans lt (hhead m hm)
    · split
      · rename_i lt
        refine List.pairwise_cons.2 ⟨fun m hm => ?_, ih hrest⟩
        rcases mem_insertMode.1 hm with rfl | hm
        · exact lt
        · exact hhead m hm
      · exact h

/-- Finitely many modes, in increasing order. -/
@[ext] structure Modes where
  values : List Int64
  ascending : values.Pairwise (· < ·)
  deriving DecidableEq

namespace Modes

def empty : Modes := ⟨[], List.Pairwise.nil⟩

def insert (modes : Modes) (mode : Int64) : Modes :=
  ⟨insertMode mode modes.values, pairwise_insertMode mode modes.ascending⟩

def ofList (values : List Int64) : Modes :=
  values.foldl insert empty

/-- The modes with a separator between them. -/
def join (modes : Modes) (separator : String) : String :=
  separator.intercalate (modes.values.map fun m => toString m.toInt)

end Modes

/-- The modes whose intervals count. -/
inductive ModeSet where
  | all
  | only (modes : Modes)
  deriving DecidableEq

namespace ModeSet

def contains (set : ModeSet) (mode : Int64) : Bool :=
  match set with
  | all => true
  | only modes => modes.values.contains mode

/-- Reads a mode set: `*` or `all`, or modes with commas between them. Blanks around the text and
around the pieces, and empty pieces, do not matter. The first piece that is no mode gives the
error. -/
def parse (text : String) : Except IntegerError ModeSet :=
  let trimmed := Text.trim text.toList
  if trimmed = ['*'] ∨ trimmed = ['a', 'l', 'l'] then .ok all
  else
    let pieces := (Text.pieces ',' trimmed).map Text.trim |>.filter (!·.isEmpty)
    (pieces.mapM readWord).map fun values => only (.ofList values)

/-- The text of a mode set. -/
def text : ModeSet → String
  | all => "*"
  | only modes => modes.join ","

/-- A mode set as log lines show it inside other values. -/
def shown : ModeSet → String
  | all => "All"
  | only modes => "Only(\x7b" ++ modes.join ", " ++ "\x7d)"

end ModeSet

end IntervalStats
