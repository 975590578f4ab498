import Mathlib.Data.List.GetD
import IntervalStats.Proofs.ExactSum

/-!
# Sums element by element

When a quantity is the exact sum of two others (`Quantity.IsSum`), and when two quantities have such a
sum (`Quantity.SumFits`). What holds of addition holds of every operation on words that is exact or fails,
so it is proved of any join of two integers (`Quantity.IsJoin`, `Quantity.combine_eq_ok_iff`). Addition
finds the sum exactly where there is one (`Quantity.add_eq_ok_iff`), so a total over intervals that is found at all is the exact sum of the
changes, whatever their signs (`exact_of_aggregate_eq_ok`). Of computations that are never negative
more holds: one that measures the sum of two others succeeds wherever both do and their results have
a sum (`Measures.eq_ok_iff_isSum`).
-/

namespace IntervalStats

namespace Quantity

variable {a b q : Quantity} {n k : Nat} {f : Nat → Int}

/-- The number of an instance, zero if there is no such instance. -/
def exact (q : Quantity) (k : Nat) : Int :=
  (q.elements.getD k 0).toInt

/-- The three have one shape, and each number of the first is the join of those of the others. -/
def IsJoin (join : Int → Int → Int) (q a b : Quantity) : Prop :=
  a.shape = q.shape ∧ b.shape = q.shape ∧ ∀ k < q.shape.size, q.exact k = join (a.exact k) (b.exact k)

/-- The three have one shape, and each number of the first is the exact sum of those of the others. -/
def IsSum (q a b : Quantity) : Prop :=
  a.shape = q.shape ∧ b.shape = q.shape ∧ ∀ k < q.shape.size, q.exact k = a.exact k + b.exact k

/-- The two have one shape, and a signed word holds each sum of their numbers. -/
def SumFits (a b : Quantity) : Prop :=
  a.shape = b.shape ∧ ∀ k < a.shape.size, FitsWord (a.exact k + b.exact k)

instance : Decidable (q.IsSum a b) :=
  inferInstanceAs (Decidable (_ ∧ _))

instance : Decidable (a.SumFits b) :=
  inferInstanceAs (Decidable (_ ∧ _))

theorem length_elements (q : Quantity) : q.elements.length = q.shape.size := by
  cases q <;> rfl

theorem exact_of_size_le (beyond : q.shape.size ≤ k) : q.exact k = 0 := by
  rw [exact, List.getD_eq_default _ _ (q.length_elements ▸ beyond), Int64.toInt_zero]

theorem fitsWord_exact (q : Quantity) (k : Nat) : FitsWord (q.exact k) :=
  fitsWord_toInt _

theorem IsSum.exact_eq (sum : q.IsSum a b) (k : Nat) : q.exact k = a.exact k + b.exact k := by
  by_cases inside : k < q.shape.size
  · exact sum.2.2 k inside
  · have beyond := Nat.not_lt.1 inside
    rw [exact_of_size_le beyond, exact_of_size_le (sum.1 ▸ beyond), exact_of_size_le (sum.2.1 ▸ beyond)]
    rfl

theorem isExact_iff : q.IsExact n f ↔ q.shape = .array n ∧ ∀ k < n, q.exact k = f k := by
  cases q with
  | scalar value => simp [IsExact, shape]
  | array values =>
    have words : IsExact (array values) n f ↔ ExactWords values n f := by simp [IsExact]
    rw [words, exactWords_iff, shape, Shape.array.injEq]
    apply and_congr_right
    rintro rfl
    constructor
    · intro given k inside
      rw [exact, elements, List.getD_eq_getElem _ _ inside]
      exact given k _ (List.getElem?_eq_getElem inside)
    · intro given k value present
      obtain ⟨inside, rfl⟩ := List.getElem?_eq_some_iff.1 present
      rw [← given k inside, exact, elements, List.getD_eq_getElem _ _ inside]

theorem isExact_exact {values : List Int64} :
    (array values).IsExact values.length (array values).exact :=
  isExact_iff.2 ⟨rfl, fun _ _ => rfl⟩

theorem IsExact.exact_nonneg (holds : q.IsExact n f) (nonneg : ∀ k < n, 0 ≤ f k) (k : Nat) :
    0 ≤ q.exact k := by
  obtain ⟨shaped, same⟩ := isExact_iff.1 holds
  by_cases inside : k < n
  · rw [same k inside]
    exact nonneg k inside
  · have beyond : q.shape.size ≤ k := by
      rw [shaped]
      exact Nat.not_lt.1 inside
    exact Int.le_of_eq (exact_of_size_le beyond).symm

/-- There is a quantity of these integers in every shape. -/
theorem exists_exact {shape : Shape} (fits : ∀ k < shape.size, FitsWord (f k)) :
    ∃ q : Quantity, q.shape = shape ∧ ∀ k < shape.size, q.exact k = f k := by
  cases shape with
  | scalar =>
    refine ⟨scalar (Int64.ofInt (f 0)), rfl, fun k inside => ?_⟩
    obtain rfl : k = 0 := Nat.lt_one_iff.1 inside
    exact toInt_ofInt_of_fitsWord (fits 0 inside)
  | array length =>
    obtain ⟨q, holds⟩ := exists_isExact fits
    exact ⟨q, isExact_iff.1 holds⟩

/-- An operation on words that is exact or fails gives the exact join of two quantities, or nothing. -/
theorem combine_eq_ok_iff {op : Int64 → Int64 → Outcome Int64} {join : Int → Int → Int}
    (spec : ∀ {x y z}, op x y = .ok z ↔ z.toInt = join x.toInt y.toInt) :
    combine op a b = .ok q ↔ q.IsJoin join a b := by
  cases a with
  | scalar x =>
    cases b with
    | scalar y =>
      have joined : combine op (scalar x) (scalar y) = .ok q ↔
          ∃ z : Int64, z.toInt = join x.toInt y.toInt ∧ scalar z = q := by
        simp only [combine, map_eq_ok_iff, spec]
      rw [joined]
      cases q with
      | scalar z => simp [IsJoin, shape, Shape.size, exact, elements]
      | array zs => simp [IsJoin, shape]
    | array ys => cases q <;> simp [combine, fail, IsJoin, shape]
  | array xs =>
    cases b with
    | scalar y => cases q <;> simp [combine, fail, IsJoin, shape]
    | array ys =>
      by_cases same : xs.length = ys.length
      · have right : (array ys).IsExact xs.length (array ys).exact := same ▸ isExact_exact
        rw [isExact_exact.combine_eq_ok_iff spec right, isExact_iff]
        constructor
        · rintro ⟨shaped, joins⟩
          rw [IsJoin, shaped, shape, shape, same]
          exact ⟨rfl, rfl, same ▸ joins⟩
        · rintro ⟨left, -, joins⟩
          rw [← left] at joins
          exact ⟨left.symm, joins⟩
      · have unequal : ¬q.IsJoin join (array xs) (array ys) := by
          rintro ⟨left, right, -⟩
          exact same (Shape.array.inj (left.trans right.symm))
        simp [combine, same, fail, unequal]

/-- Two quantities of one shape have a join where a signed word holds the join of their numbers. -/
theorem exists_isJoin_iff {join : Int → Int → Int} :
    (∃ q : Quantity, q.IsJoin join a b) ↔
      a.shape = b.shape ∧ ∀ k < a.shape.size, FitsWord (join (a.exact k) (b.exact k)) := by
  constructor
  · rintro ⟨q, left, right, joins⟩
    refine ⟨left.trans right.symm, fun k inside => ?_⟩
    rw [← joins k (left ▸ inside)]
    exact q.fitsWord_exact k
  · rintro ⟨same, fits⟩
    obtain ⟨q, shaped, joins⟩ := exists_exact fits
    exact ⟨q, shaped.symm, same.symm.trans shaped.symm, shaped ▸ joins⟩

/-- Addition gives the exact sum, or nothing. -/
theorem add_eq_ok_iff : a.add b = .ok q ↔ q.IsSum a b := by
  show combine checkedAdd a b = .ok q ↔ q.IsJoin (· + ·) a b
  exact combine_eq_ok_iff checkedAdd_eq_ok_iff

theorem exists_isSum_iff : (∃ q : Quantity, q.IsSum a b) ↔ a.SumFits b := by
  show (∃ q : Quantity, q.IsJoin (· + ·) a b) ↔ _
  exact exists_isJoin_iff

end Quantity

/-! ## Computations that are never negative -/

namespace Measures

variable {x y z : Outcome Quantity} {n : Nat} {P Q : Nat → Prop} {f g : Nat → Int}

/-- What measures the sum of two computations is the sum of their results. -/
theorem eq_ok_iff_isSum (whole : Measures z n (fun k => P k ∧ Q k) fun k => f k + g k)
    (left : Measures x n P f) (right : Measures y n Q g) (q : Quantity) :
    z = .ok q ↔ ∃ a b, x = .ok a ∧ y = .ok b ∧ q.IsSum a b := by
  rw [whole.eq_ok_iff, ← (left.add right).eq_ok_iff]
  simp only [bind_eq_ok_iff, Quantity.add_eq_ok_iff]
  constructor
  · rintro ⟨a, gotA, b, gotB, sum⟩
    exact ⟨a, b, gotA, gotB, sum⟩
  · rintro ⟨a, b, gotA, gotB, sum⟩
    exact ⟨a, gotA, b, gotB, sum⟩

theorem exists_ok_iff_sumFits (whole : Measures z n (fun k => P k ∧ Q k) fun k => f k + g k)
    (left : Measures x n P f) (right : Measures y n Q g) :
    (∃ q, z = .ok q) ↔ ∃ a b, x = .ok a ∧ y = .ok b ∧ a.SumFits b := by
  simp only [whole.eq_ok_iff_isSum left right, ← Quantity.exists_isSum_iff]
  constructor
  · rintro ⟨q, a, b, gotA, gotB, sum⟩
    exact ⟨a, b, gotA, gotB, q, sum⟩
  · rintro ⟨a, b, gotA, gotB, q, sum⟩
    exact ⟨q, a, b, gotA, gotB, sum⟩

theorem isSum (whole : Measures z n (fun k => P k ∧ Q k) fun k => f k + g k)
    (left : Measures x n P f) (right : Measures y n Q g) {q a b : Quantity} (gotWhole : z = .ok q)
    (gotLeft : x = .ok a) (gotRight : y = .ok b) : q.IsSum a b := by
  obtain ⟨a', b', gotA, gotB, sum⟩ := (whole.eq_ok_iff_isSum left right q).1 gotWhole
  cases gotLeft.symm.trans gotA
  cases gotRight.symm.trans gotB
  exact sum

theorem shape_eq (measured : Measures x n P f) {q : Quantity} (got : x = .ok q) :
    q.shape = .array n :=
  (Quantity.isExact_iff.1 ((measured.eq_ok_iff q).1 got).2).1

theorem exact_nonneg (measured : Measures x n P f) {q : Quantity} (got : x = .ok q) (k : Nat) :
    0 ≤ q.exact k := by
  obtain ⟨admitted, holds⟩ := (measured.eq_ok_iff q).1 got
  exact holds.exact_nonneg (fun k inside => measured.nonneg k inside (admitted k inside)) k

end Measures

/-! ## Totals over intervals -/

/-- What a computation gives for an instance, zero if it fails. -/
def Outcome.exact (x : Outcome Quantity) (k : Nat) : Int :=
  match x with
  | .ok q => q.exact k
  | .error _ => 0

/-- A computation that measures anything measures what it gives. -/
theorem Measures.self {x : Outcome Quantity} {n : Nat} {P : Nat → Prop} {f : Nat → Int}
    (measured : Measures x n P f) : Measures x n (fun _ => ∃ q, x = .ok q) (Outcome.exact x) := by
  cases x with
  | error e =>
    refine ⟨fun _ _ _ => Int.le_refl 0, fun q => ?_⟩
    constructor
    · intro got
      cases got
    · rintro ⟨given, holds⟩
      -- Without an instance nothing is demanded, and then the computation would have succeeded.
      have none : n = 0 := Nat.eq_zero_of_not_pos fun some => by simpa using given 0 some
      subst none
      exact (measured.eq_ok_iff q).2 ⟨by simp, holds.congr (by simp)⟩
  | ok q' =>
    refine ⟨fun k _ _ => measured.exact_nonneg rfl k, fun q => ?_⟩
    have holds : q'.IsExact n q'.exact := Quantity.isExact_iff.2 ⟨measured.shape_eq rfl, fun _ _ => rfl⟩
    constructor
    · intro got
      cases got
      exact ⟨fun _ _ => ⟨q', rfl⟩, holds⟩
    · rintro ⟨-, same⟩
      rw [holds.unique same]

theorem Quantity.exact_zero (shape : Shape) (k : Nat) : (Quantity.zero shape).exact k = 0 := by
  cases shape with
  | scalar => cases k <;> rfl
  | array length => simp [exact, zero, elements]

theorem Quantity.shape_zero (shape : Shape) : (Quantity.zero shape).shape = shape := by
  cases shape with
  | scalar => rfl
  | array length => simp [zero, Quantity.shape]

/-- A total is the start and all changes together. The induction is on the changes that are left. -/
theorem foldlM_add_exact {delta : Nat → Outcome Quantity} {indices : List Nat} {start q : Quantity}
    (summed : indices.foldlM (fun sum i => do let change ← delta i; sum.add change) start = .ok q) :
    q.shape = start.shape ∧
      ∀ k, q.exact k = start.exact k + (indices.map fun i => Outcome.exact (delta i) k).sum := by
  induction indices generalizing start with
  | nil =>
    cases pure_eq_ok_iff.1 summed
    simp
  | cons i indices ih =>
    simp only [List.foldlM_cons, bind_eq_ok_iff, Quantity.add_eq_ok_iff] at summed
    obtain ⟨next, ⟨change, changed, sum⟩, rest⟩ := summed
    obtain ⟨shaped, sums⟩ := ih rest
    refine ⟨shaped.trans sum.1.symm, fun k => ?_⟩
    rw [sums k, sum.exact_eq k, List.map_cons, List.sum_cons, changed, Int.add_assoc]
    rfl

section Aggregate

variable {config : Config} {trace : Trace} {metric : Metric} {modes : ModeSet} {q : Quantity}

/-- A sum over intervals has the shape of its metric and is the exact sum of the changes. -/
theorem exact_of_aggregate_eq_ok (summed : aggregate config trace metric modes = .ok q) :
    metric.shape config trace = .ok q.shape ∧
      ∀ k, q.exact k = ∑ i ∈ trace.acceptedIntervals modes,
        Outcome.exact (metric.delta config trace i) k := by
  rw [aggregate, bind_eq_ok_iff] at summed
  obtain ⟨shape, settled, summed⟩ := summed
  obtain ⟨shaped, sums⟩ := foldlM_add_exact summed
  rw [Quantity.shape_zero] at shaped
  refine ⟨shaped ▸ ofExcept_eq_ok_iff.1 settled, fun k => ?_⟩
  rw [sums k, Quantity.exact_zero, Int.zero_add, Trace.sum_accepted]

/-- The sum over a single interval is the change over it. -/
theorem aggregate_of_accepted_singleton {i : Nat} (only : trace.accepted modes = [i])
    (shaped : metric.shape config trace = .ok q.shape) (changed : metric.delta config trace i = .ok q) :
    aggregate config trace metric modes = .ok q := by
  rw [aggregate, shaped]
  change (trace.accepted modes).foldlM _ _ = _
  rw [only, List.foldlM_cons, changed]
  simp only [List.foldlM_nil, bind_pure]
  refine Quantity.add_eq_ok_iff.2 ⟨Quantity.shape_zero _, rfl, fun k _ => ?_⟩
  rw [Quantity.exact_zero, Int.zero_add]

end Aggregate

end IntervalStats
