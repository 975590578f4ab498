import IntervalStats.Json.Number
import IntervalStats.Json.Tree
import IntervalStats.Table

/-!
# Reading values from JSON trees

What a tree means where a value of a known kind is called for. Integers are integer numerals in
range; a text is a string that denotes one; a table is an object, where the last of several values
under one name is kept; a record is an object that has each field exactly once, whatever else it has,
or an array of exactly the fields in order.

A plain value is any tree without strings that denote no text, without numbers beyond all doubles,
and not nested too deeply. `Tree.plain?` gives its settled form: members in order of their names, each
name once, and numbers as words or doubles.
-/

namespace IntervalStats.Json.Tree

/-- An unsigned word. -/
def unsigned? : Tree → Option UInt64
  | number n => n.unsigned?
  | _ => none

/-- A signed word. -/
def signed? : Tree → Option Int64
  | number n => n.signed?
  | _ => none

/-- A text. -/
def text? : Tree → Option String
  | text s => s
  | _ => none

/-- The items of an array. -/
def items? : Tree → Option (List Tree)
  | array items => some items
  | _ => none

/-- The members of an object, if all names denote texts. -/
def members? : Tree → Option (List (String × Tree))
  | object members => members.mapM fun m => m.1.map fun name => (name, m.2)
  | _ => none

/-- A table whose values are read by a function; all values must be readable. -/
def table? {α : Type} (read? : Tree → Option α) (t : Tree) : Option (Table α) := do
  let members ← t.members?
  let entries ← members.mapM fun m => (read? m.2).map fun value => (m.1, value)
  return Table.ofList entries

/-- The value of the one member of a name. -/
def only? (members : List (String × Tree)) (name : String) : Option Tree :=
  match members.filter (·.1 = name) with
  | [m] => some m.2
  | _ => none

/-- The fields of a record, in the order of their names. -/
def record? (names : List String) : Tree → Option (List Tree)
  | array items => if items.length = names.length then some items else none
  | t => do
    let members ← t.members?
    names.mapM (only? members)

/-- The greatest number of containers around a value, its own included. -/
def depthLimit : Nat := 127

mutual

/-- The settled form of a plain value that may open so many containers inside each other. -/
def plain? (room : Nat) : Tree → Option Tree
  | null => some null
  | bool b => some (bool b)
  | number n => n.settle?.map number
  | text s => s.map ofText
  | array items =>
    if room = 0 then none else (plainItems? (room - 1) items).map array
  | object members =>
    if room = 0 then none
    else (plainMembers? (room - 1) members).map fun entries => ofMembers (Table.ofList entries).entries

def plainItems? (room : Nat) : List Tree → Option (List Tree)
  | [] => some []
  | item :: rest => do
    let item ← plain? room item
    let rest ← plainItems? room rest
    return item :: rest

def plainMembers? (room : Nat) : List (Option String × Tree) → Option (List (String × Tree))
  | [] => some []
  | (name, value) :: rest => do
    let name ← name
    let value ← plain? room value
    let rest ← plainMembers? room rest
    return (name, value) :: rest

end

/-- The tree of a double; one that is no number is written as null. -/
def ofFloat (x : Float) : Tree :=
  match Decimal.Layout.json.numeral? x with
  | some n => number n
  | none => null

end IntervalStats.Json.Tree
