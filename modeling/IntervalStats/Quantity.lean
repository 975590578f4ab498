import IntervalStats.Checked

/-!
# Quantities

What a metric measures: one signed number for the whole system, or one for each instance of a
component. The shape of a quantity says which, and how many. Addition and subtraction go element by
element and need equal shapes; a single number and a list of one number differ in shape. Sums are
exact or stop with a fault. `Quantity.add` and `Quantity.sub` give a new quantity, `Quantity.increase`
and `Quantity.decrease` change one in place.
-/

namespace IntervalStats

/-- One number, or so many numbers, one for each instance. -/
inductive Shape where
  | scalar
  | array (length : Nat)
  deriving DecidableEq, Repr

/-- The number of elements. -/
def Shape.size : Shape → Nat
  | scalar => 1
  | array length => length

inductive Quantity where
  | scalar (value : Int64)
  | array (values : List Int64)
  deriving DecidableEq, Repr

/-- The values followed by zeros up to a length, unless there are more of them. -/
def padTo (length : Nat) (values : List Int64) : Option (List Int64) :=
  if values.length ≤ length then some (values ++ List.replicate (length - values.length) 0)
  else none

/-- The sum of signed words from the left, beginning with zero; each partial sum must fit. -/
def sumWords (values : List Int64) : Outcome Int64 :=
  values.foldlM checkedAdd 0

/-- Replaces each word by its join with the word beside it, from the left. At the first join that fails
the words before it are replaced already, and all others stay as they were. -/
def overwrite (op : Int64 → Int64 → Outcome Int64) :
    List Int64 → List Int64 → List Int64 × Outcome Unit
  | [], [] => ([], .ok ())
  | x :: xs, y :: ys =>
    match op x y with
    | .ok z =>
      let (zs, ending) := overwrite op xs ys
      (z :: zs, ending)
    | .error e => (x :: xs, .error e)
  | xs, _ => (xs, halt .unequalLengths)

namespace Quantity

def zero : Shape → Quantity
  | .scalar => scalar 0
  | .array length => array (List.replicate length 0)

def shape : Quantity → Shape
  | scalar _ => .scalar
  | array values => .array values.length

/-- The elements, in order of the instances. -/
def elements : Quantity → List Int64
  | scalar value => [value]
  | array values => values

/-- The sum of all elements. -/
def total : Quantity → Outcome Int64
  | scalar value => .ok value
  | array values => sumWords values

/-- Joins two quantities of one shape element by element. -/
def combine (op : Int64 → Int64 → Outcome Int64) (a b : Quantity) : Outcome Quantity :=
  match a, b with
  | scalar x, scalar y => scalar <$> op x y
  | array xs, array ys =>
    if xs.length = ys.length then array <$> joinExact op xs ys
    else fail (.shapeMismatch "Element-wise operand" xs.length ys.length)
  | a, b => fail (.shapeMismatch "Element-wise operand" a.shape.size b.shape.size)

def add : Quantity → Quantity → Outcome Quantity :=
  combine checkedAdd

def sub : Quantity → Quantity → Outcome Quantity :=
  combine checkedSub

/-- A quantity after an operation in place, and how the operation ended. -/
structure Update where
  after : Quantity
  ending : Outcome Unit

/-- Joins a quantity of the same shape into a quantity in place, element by element. -/
def update (op : Int64 → Int64 → Outcome Int64) (a b : Quantity) : Update :=
  match a, b with
  | scalar x, scalar y =>
    match op x y with
    | .ok z => ⟨scalar z, .ok ()⟩
    | .error e => ⟨scalar x, .error e⟩
  | array xs, array ys =>
    if xs.length = ys.length then ⟨array (overwrite op xs ys).1, (overwrite op xs ys).2⟩
    else ⟨array xs, fail (.shapeMismatch "Element-wise operand" xs.length ys.length)⟩
  | a, b => ⟨a, fail (.shapeMismatch "Element-wise operand" a.shape.size b.shape.size)⟩

def increase : Quantity → Quantity → Update :=
  update checkedAdd

def decrease : Quantity → Quantity → Update :=
  update checkedSub

/-- The elements followed by zeros up to a length; `what` names them if there are more. -/
def padded (q : Quantity) (length : Nat) (what : String) : Outcome (List Int64) :=
  match padTo length q.elements with
  | some values => .ok values
  | none => fail (.shapeMismatch what length q.elements.length)

/-- A number, or the numbers in brackets. -/
def text : Quantity → String
  | scalar value => toString value.toInt
  | array values => "[" ++ ", ".intercalate (values.map fun v => toString v.toInt) ++ "]"

end Quantity

end IntervalStats
