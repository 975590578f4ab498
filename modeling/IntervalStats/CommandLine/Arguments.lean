import IntervalStats.ModeSet

/-!
# Arguments of a command line

What arguments a command takes, and how they are read. Options begin with two dashes and may stand
anywhere before a lone `--`, with their value after an equals sign or as the next argument; everything
else fills the positions in turn.

A value is checked when the argument after it is taken up, or at the end. So of two mistakes the
earlier is reported, except that an argument which is not known at all is reported before the value
right before it.
-/

namespace IntervalStats.CommandLine

/-- What a value is checked for. -/
inductive ValueKind where
  /-- Any text. -/
  | text
  /-- A text that is not empty. -/
  | path
  /-- A set of operation modes. -/
  | modes
  deriving DecidableEq, Repr

/-- An argument that is known by its place. -/
structure Position where
  name : String
  kind : ValueKind
  required : Bool
  summary : String

/-- An option; one without a value is a switch. -/
structure Choice where
  name : String
  value : Option (String × ValueKind)
  summary : String
  details : Option String

/-- What arguments a command takes. -/
structure Command where
  name : String
  positions : List Position
  options : List Choice
  /-- What follows the description of the arguments. -/
  epilogue : Option String

/-- Why a command line is not run. -/
inductive Refusal where
  /-- The description of the arguments was asked for. -/
  | help
  | missingArguments
  | missingValue (argument : String)
  | invalidModes (value : String) (argument : String) (reason : IntegerError)
  | unexpectedArgument (argument : String)
  | unexpectedValue (value : String) (argument : String)
  | repeated (argument : String)
  deriving DecidableEq, Repr

/-- The first line about a mistake. -/
def Refusal.message : Refusal → String
  | help => ""
  | missingArguments => "error: the following required arguments were not provided:"
  | missingValue argument => s!"error: a value is required for '{argument}' but none was supplied"
  | invalidModes value argument reason =>
    s!"error: invalid value '{value}' for '{argument}': " ++ reason.message
  | unexpectedArgument argument => s!"error: unexpected argument '{argument}' found"
  | unexpectedValue value argument =>
    s!"error: unexpected value '{value}' for '{argument}' found; no more were expected"
  | repeated argument => s!"error: the argument '{argument}' cannot be used multiple times"

/-- A position as messages show it. -/
def Position.label (p : Position) : String :=
  if p.required then "<" ++ p.name ++ ">" else "[" ++ p.name ++ "]"

/-- An option as messages show it. -/
def Choice.label (o : Choice) : String :=
  match o.value with
  | some (value, _) => "--" ++ o.name ++ " <" ++ value ++ ">"
  | none => "--" ++ o.name

/-- Checks a value. -/
def ValueKind.check (kind : ValueKind) (label value : String) : Except Refusal Unit :=
  match kind with
  | text => .ok ()
  | path => if value = "" then .error (.missingValue label) else .ok ()
  | modes =>
    match ModeSet.parse value with
    | .ok _ => .ok ()
    | .error reason => .error (.invalidModes value label reason)

/-- An argument that is not checked yet. -/
inductive Pending where
  | nothing
  /-- An option whose value is the next argument. -/
  | awaiting (name label : String) (kind : ValueKind)
  | value (name label : String) (kind : ValueKind) (value : String)

/-- What has been read of a command line. -/
structure Reading where
  /-- Checked values by the name of their argument; a switch has the empty value. -/
  values : List (String × String)
  pending : Pending
  /-- The positions that are still free. -/
  free : List Position
  /-- No more options may come. -/
  closed : Bool

namespace Reading

def has (r : Reading) (name : String) : Bool :=
  r.values.any (·.1 = name)

/-- Enters a value that was given only once and is sound. -/
def enter (r : Reading) (name label : String) (kind : ValueKind) (value : String) :
    Except Refusal Reading := do
  if r.has name then throw (.repeated label)
  kind.check label value
  return { r with values := (name, value) :: r.values }

/-- Checks the argument that is not checked yet. -/
def settle (r : Reading) : Except Refusal Reading :=
  match r.pending with
  | .nothing => .ok r
  | .awaiting _ label _ => .error (.missingValue label)
  | .value name label kind value => { r with pending := .nothing }.enter name label kind value

/-- Takes an argument into the next free position. -/
def takePosition (r : Reading) (arg : String) : Except Refusal Reading :=
  match r.free with
  | [] => .error (.unexpectedArgument arg)
  | p :: free => do
    let r ← r.settle
    return { r with free, pending := .value p.name p.label p.kind arg }

/-- Takes an option, with the value after its equals sign if there is one. -/
def takeOption (r : Reading) (options : List Choice) (name : String) (given : Option String) :
    Except Refusal Reading :=
  if name = "help" then
    match given with
    | some value => .error (.unexpectedValue value "--help")
    | none => do
      let _ ← r.settle
      throw .help
  else
    match options.find? (·.name = name) with
    | none => .error (.unexpectedArgument ("--" ++ name))
    | some o =>
      match o.value, given with
      | none, some value => .error (.unexpectedValue value o.label)
      | none, none => do
        let r ← r.settle
        r.enter o.name o.label .text ""
      | some (_, kind), some value => do
        let r ← r.settle
        r.enter o.name o.label kind value
      | some (_, kind), none => do
        let r ← r.settle
        return { r with pending := .awaiting o.name o.label kind }

/-- Takes an argument of one dash; only the request for help is known. -/
def takeShort (r : Reading) (letter : Char) : Except Refusal Reading :=
  if letter = 'h' then do
    let _ ← r.settle
    throw .help
  else .error (.unexpectedArgument ("-" ++ String.singleton letter))

/-- The name of an option and the value after its equals sign. -/
def splitOption (cs : List Char) : String × Option String :=
  match cs.dropWhile (· ≠ '=') with
  | _ :: value => (String.ofList (cs.takeWhile (· ≠ '=')), some (String.ofList value))
  | [] => (String.ofList cs, none)

/-- Takes the next argument. -/
def step (options : List Choice) (r : Reading) (arg : String) : Except Refusal Reading :=
  if r.closed then r.takePosition arg
  else match arg.toList with
    | ['-', '-'] => .ok { r with closed := true }
    | '-' :: '-' :: rest => r.takeOption options (splitOption rest).1 (splitOption rest).2
    | '-' :: letter :: _ => r.takeShort letter
    | _ =>
      match r.pending with
      | .awaiting name label kind => .ok { r with pending := .value name label kind arg }
      | _ => r.takePosition arg

/-- The value of an argument. -/
def value? (r : Reading) (name : String) : Option String :=
  r.values.lookup name

end Reading

namespace Command

/-- Reads the arguments of a command. -/
def read (c : Command) (args : List String) : Except Refusal Reading := do
  let r ← args.foldlM (Reading.step c.options) ⟨[], .nothing, c.positions, false⟩
  let r ← r.settle
  if r.free.any (·.required) then throw .missingArguments
  return r

/-- Lines of a paragraph under an argument. -/
def indented (text : String) : String :=
  "          " ++ text ++ "\n"

def describePosition (p : Position) : String :=
  "  " ++ p.label ++ "\n" ++ indented p.summary ++ "\n"

def describeOption (o : Choice) : String :=
  "      " ++ o.label ++ "\n" ++ indented o.summary
    ++ (match o.details with
      | some details => indented "" ++ indented details
      | none => "")
    ++ "\n"

/-- The description of the arguments of a command. -/
def describe (c : Command) : String :=
  "Arguments\n\nUsage: " ++ c.name ++ " [OPTIONS] " ++ " ".intercalate (c.positions.map (·.label))
    ++ "\n\nArguments:\n" ++ "".intercalate (c.positions.map describePosition)
    ++ "Options:\n" ++ "".intercalate (c.options.map describeOption)
    ++ "  -h, --help\n" ++ indented "Print help (see a summary with '-h')"
    ++ (match c.epilogue with
      | some epilogue => "\n" ++ epilogue
      | none => "")

end Command

end IntervalStats.CommandLine
