import Mathlib.Algebra.Order.BigOperators.Ring.Finset
import IntervalStats.Quantity
import IntervalStats.Proofs.Outcome

/-!
# Exact quantities

What a list of words, a quantity and a computation of a quantity mean in integers. `ExactWords` and
`Quantity.IsExact` say that there is one word for each of `n` instances and that the words are given
integers, so every fact about machine arithmetic becomes one about `Int`. `Measures` says of a whole
computation that it gives integers which are not negative, and that it succeeds exactly when each
instance is admitted and the integers fit; it is kept by addition (`Measures.add`), which is the one
place where a word may overflow. `Yields` says the same of a computation of one word, such as a total
(`Measures.total`).
-/

namespace IntervalStats

/-! ## Words -/

/-- The words are these integers, one for each of `n` instances. -/
def ExactWords (values : List Int64) (n : Nat) (exact : Nat → Int) : Prop :=
  values.map Int64.toInt = (List.range n).map exact

instance (values : List Int64) (n : Nat) (exact : Nat → Int) : Decidable (ExactWords values n exact) :=
  inferInstanceAs (Decidable (_ = _))

theorem exactWords_iff {values : List Int64} {n : Nat} {exact : Nat → Int} :
    ExactWords values n exact ↔
      values.length = n ∧ ∀ k value, values[k]? = some value → value.toInt = exact k := by
  constructor
  · intro words
    have length : values.length = n := by simpa using congrArg List.length words
    refine ⟨length, fun k value present => ?_⟩
    have inside : k < n := length ▸ (List.getElem?_eq_some_iff.1 present).1
    have same := congrArg (·[k]?) words
    simpa [present, inside] using same
  · rintro ⟨rfl, words⟩
    apply List.ext_getElem?
    intro k
    by_cases inside : k < values.length
    · simpa [inside] using words k values[k] (List.getElem?_eq_getElem inside)
    · simp [inside]

namespace ExactWords

variable {values : List Int64} {n : Nat} {exact exact' : Nat → Int}

theorem length_eq (words : ExactWords values n exact) : values.length = n :=
  (exactWords_iff.1 words).1

theorem toInt_getElem? (words : ExactWords values n exact) {k : Nat} {value : Int64}
    (present : values[k]? = some value) : value.toInt = exact k :=
  (exactWords_iff.1 words).2 k value present

theorem exists_getElem? (words : ExactWords values n exact) {k : Nat} (inside : k < n) :
    ∃ value, values[k]? = some value ∧ value.toInt = exact k := by
  have bound : k < values.length := words.length_eq ▸ inside
  exact ⟨values[k], List.getElem?_eq_getElem bound,
    words.toInt_getElem? (List.getElem?_eq_getElem bound)⟩

theorem fits (words : ExactWords values n exact) {k : Nat} (inside : k < n) :
    FitsWord (exact k) := by
  obtain ⟨value, -, same⟩ := words.exists_getElem? inside
  exact same ▸ fitsWord_toInt value

theorem congr (words : ExactWords values n exact) (same : ∀ k < n, exact k = exact' k) :
    ExactWords values n exact' := by
  rw [ExactWords, words]
  exact List.map_congr_left fun k inside => same k (List.mem_range.1 inside)

theorem unique {values' : List Int64} (words : ExactWords values n exact)
    (words' : ExactWords values' n exact) : values = values' :=
  List.map_injective_iff.2 (fun _ _ => Int64.toInt_inj.1) (words.trans words'.symm)

theorem sum_toInt (words : ExactWords values n exact) :
    (values.map Int64.toInt).sum = ∑ k ∈ Finset.range n, exact k := by
  rw [words]
  rfl

end ExactWords

theorem exists_exactWords {n : Nat} {exact : Nat → Int} (fits : ∀ k < n, FitsWord (exact k)) :
    ∃ values, ExactWords values n exact := by
  refine ⟨(List.range n).map fun k => Int64.ofInt (exact k), ?_⟩
  rw [ExactWords, List.map_map]
  exact List.map_congr_left fun k inside => toInt_ofInt_of_fitsWord (fits k (List.mem_range.1 inside))

theorem exactWords_replicate_zero (n : Nat) :
    ExactWords (List.replicate n 0) n fun _ => 0 := by
  simp [ExactWords]

/-- An operation on words that is exact on each pair is exact on lists. -/
theorem ExactWords.joinExact_eq_ok_iff {op : Int64 → Int64 → Outcome Int64}
    {combine : Int → Int → Int}
    (spec : ∀ {a b c}, op a b = .ok c ↔ c.toInt = combine a.toInt b.toInt)
    {xs ys zs : List Int64} {n : Nat} {f g : Nat → Int}
    (left : ExactWords xs n f) (right : ExactWords ys n g) :
    joinExact op xs ys = .ok zs ↔ ExactWords zs n fun k => combine (f k) (g k) := by
  rw [IntervalStats.joinExact_eq_ok_iff, exactWords_iff, left.length_eq, right.length_eq]
  constructor
  · rintro ⟨length, -, joined⟩
    refine ⟨length.symm, fun k z present => ?_⟩
    have inside : k < n := length ▸ (List.getElem?_eq_some_iff.1 present).1
    obtain ⟨x, hx, exactX⟩ := left.exists_getElem? inside
    obtain ⟨y, hy, exactY⟩ := right.exists_getElem? inside
    rw [spec.1 (joined k x y z hx hy present), exactX, exactY]
  · rintro ⟨length, words⟩
    refine ⟨length.symm, length.symm, fun k x y z hx hy hz => spec.2 ?_⟩
    rw [words k z hz, left.toInt_getElem? hx, right.toInt_getElem? hy]

theorem failsWith_wordOf {P : Failure → Prop} {fault : Fault} (holds : P (.fault fault)) (x : Int) :
    Outcome.FailsWith P (wordOf x fault) := by
  unfold wordOf
  split
  · exact .ok _
  · exact .error holds

/-- A sum of words that is found is exact, whatever their signs. -/
theorem toInt_of_foldlM_checkedAdd {values : List Int64} {start total : Int64}
    (summed : values.foldlM checkedAdd start = .ok total) :
    total.toInt = start.toInt + (values.map Int64.toInt).sum := by
  induction values generalizing start with
  | nil =>
    cases pure_eq_ok_iff.1 summed
    rw [List.map_nil, List.sum_nil, Int.add_zero]
  | cons v values ih =>
    rw [List.foldlM_cons, bind_eq_ok_iff] at summed
    obtain ⟨next, added, rest⟩ := summed
    rw [ih rest, checkedAdd_eq_ok_iff.1 added, List.map_cons, List.sum_cons, Int.add_assoc]

/-- No partial sum of words that are not negative exceeds the whole sum, so the sum is found exactly
when it is a word. -/
theorem foldlM_checkedAdd_eq_ok_iff {values : List Int64} (nonneg : ∀ v ∈ values, 0 ≤ v.toInt)
    {start total : Int64} :
    values.foldlM checkedAdd start = .ok total ↔
      total.toInt = start.toInt + (values.map Int64.toInt).sum := by
  refine ⟨toInt_of_foldlM_checkedAdd, fun whole => ?_⟩
  induction values generalizing start with
  | nil =>
    rw [List.map_nil, List.sum_nil, Int.add_zero, Int64.toInt_inj] at whole
    exact pure_eq_ok_iff.2 whole.symm
  | cons v values ih =>
    obtain ⟨head, tail⟩ := List.forall_mem_cons.1 nonneg
    rw [List.map_cons, List.sum_cons] at whole
    have rest : 0 ≤ (values.map Int64.toInt).sum := by
      apply List.sum_nonneg
      intro x hx
      obtain ⟨w, hw, rfl⟩ := List.mem_map.1 hx
      exact tail w hw
    have fits : FitsWord (start.toInt + v.toInt) := by
      have low := (fitsWord_toInt start).1
      have high := (fitsWord_toInt total).2
      constructor <;> omega
    rw [List.foldlM_cons, bind_eq_ok_iff]
    refine ⟨Int64.ofInt (start.toInt + v.toInt), ?_, ih tail ?_⟩
    · exact checkedAdd_eq_ok_iff.2 (toInt_ofInt_of_fitsWord fits)
    · rw [toInt_ofInt_of_fitsWord fits, whole, Int.add_assoc]

/-! ## Quantities -/

/-- The quantity has one number for each of `n` instances, and the numbers are these integers. -/
def Quantity.IsExact (q : Quantity) (n : Nat) (exact : Nat → Int) : Prop :=
  ∃ values, q = .array values ∧ ExactWords values n exact

theorem exists_isExact {n : Nat} {exact : Nat → Int} (fits : ∀ k < n, FitsWord (exact k)) :
    ∃ q : Quantity, q.IsExact n exact := by
  obtain ⟨values, words⟩ := exists_exactWords fits
  exact ⟨.array values, values, rfl, words⟩

theorem Quantity.padded_eq_ok_iff_append {q : Quantity} {length : Nat} {what : String}
    {values : List Int64} :
    q.padded length what = .ok values ↔ q.elements.length ≤ length ∧
      values = q.elements ++ List.replicate (length - q.elements.length) 0 := by
  unfold padded padTo
  by_cases room : q.elements.length ≤ length
  · rw [if_pos room]
    constructor
    · intro same
      exact ⟨room, (Except.ok.inj same).symm⟩
    · rintro ⟨-, rfl⟩
      rfl
  · rw [if_neg room]
    constructor
    · intro same
      cases same
    · rintro ⟨fits, -⟩
      exact absurd fits room

/-- What is known of the failures of an operation on words is known of the operation on quantities, which
fails besides only if they differ in shape. -/
theorem Quantity.failsWith_combine {P : Failure → Prop} {op : Int64 → Int64 → Outcome Int64}
    {a b : Quantity} (each : ∀ x y, Outcome.FailsWith P (op x y))
    (mismatch : a.shape ≠ b.shape →
      P (.error (.shapeMismatch "Element-wise operand" a.shape.size b.shape.size))) :
    Outcome.FailsWith P (combine op a b) := by
  cases a with
  | scalar x =>
    cases b with
    | scalar y => exact (each x y).map
    | array ys => exact .error (mismatch nofun)
  | array xs =>
    cases b with
    | scalar y => exact .error (mismatch nofun)
    | array ys =>
      rw [combine]
      split
      next same =>
        apply Outcome.FailsWith.map
        intro e failed
        obtain ⟨_, x, y, -, -, stopped⟩ := exists_of_joinExact_eq_error same failed
        exact each x y e stopped
      next unequal =>
        apply Outcome.FailsWith.error
        apply mismatch
        intro same
        exact unequal (Shape.array.inj same)

namespace Quantity.IsExact

variable {a b q : Quantity} {n : Nat} {f g exact exact' : Nat → Int}

theorem elements (holds : q.IsExact n exact) : ExactWords q.elements n exact := by
  obtain ⟨values, rfl, words⟩ := holds
  exact words

theorem fits (holds : q.IsExact n exact) {k : Nat} (inside : k < n) : FitsWord (exact k) :=
  holds.elements.fits inside

theorem congr (holds : q.IsExact n exact) (same : ∀ k < n, exact k = exact' k) :
    q.IsExact n exact' := by
  obtain ⟨values, rfl, words⟩ := holds
  exact ⟨values, rfl, words.congr same⟩

theorem unique (left : a.IsExact n exact) (right : b.IsExact n exact) : a = b := by
  obtain ⟨xs, rfl, wordsX⟩ := left
  obtain ⟨ys, rfl, wordsY⟩ := right
  rw [wordsX.unique wordsY]

theorem combine_eq_ok_iff {op : Int64 → Int64 → Outcome Int64} {join : Int → Int → Int}
    (spec : ∀ {x y z}, op x y = .ok z ↔ z.toInt = join x.toInt y.toInt)
    (left : a.IsExact n f) (right : b.IsExact n g) :
    combine op a b = .ok q ↔ q.IsExact n fun k => join (f k) (g k) := by
  obtain ⟨xs, rfl, wordsX⟩ := left
  obtain ⟨ys, rfl, wordsY⟩ := right
  have same : xs.length = ys.length := wordsX.length_eq.trans wordsY.length_eq.symm
  rw [combine, if_pos same, map_eq_ok_iff]
  constructor
  · rintro ⟨zs, joined, rfl⟩
    exact ⟨zs, rfl, (wordsX.joinExact_eq_ok_iff spec wordsY).1 joined⟩
  · rintro ⟨zs, rfl, words⟩
    exact ⟨zs, (wordsX.joinExact_eq_ok_iff spec wordsY).2 words, rfl⟩

theorem add_eq_ok_iff (left : a.IsExact n f) (right : b.IsExact n g) :
    a.add b = .ok q ↔ q.IsExact n fun k => f k + g k :=
  left.combine_eq_ok_iff checkedAdd_eq_ok_iff right

theorem total_eq_ok_iff (holds : q.IsExact n exact) (nonneg : ∀ k < n, 0 ≤ exact k)
    {total : Int64} :
    q.total = .ok total ↔ total.toInt = ∑ k ∈ Finset.range n, exact k := by
  obtain ⟨values, rfl, words⟩ := holds
  have positive : ∀ v ∈ values, 0 ≤ v.toInt := by
    intro v member
    obtain ⟨k, bound, rfl⟩ := List.getElem_of_mem member
    rw [words.toInt_getElem? (List.getElem?_eq_getElem bound)]
    exact nonneg k (words.length_eq ▸ bound)
  change sumWords values = _ ↔ _
  rw [sumWords, foldlM_checkedAdd_eq_ok_iff positive, words.sum_toInt, Int64.toInt_zero, Int.zero_add]

theorem padded_eq_ok_iff (holds : q.IsExact n exact) {length : Nat} {what : String}
    {values : List Int64} :
    q.padded length what = .ok values ↔
      n ≤ length ∧ ExactWords values length fun k => if k < n then exact k else 0 := by
  have words := holds.elements
  have padding : n ≤ length → ExactWords (q.elements ++ List.replicate (length - n) 0) length
      fun k => if k < n then exact k else 0 := by
    intro room
    refine exactWords_iff.2 ⟨by simp [words.length_eq, room], fun k value present => ?_⟩
    rw [List.getElem?_append, words.length_eq] at present
    split at present
    · rename_i inside
      rw [if_pos inside]
      exact words.toInt_getElem? present
    · rename_i outside
      rw [if_neg outside, ← (List.mem_replicate.1 (List.mem_of_getElem? present)).2.symm]
      rfl
  rw [padded_eq_ok_iff_append, words.length_eq]
  constructor
  · rintro ⟨room, rfl⟩
    exact ⟨room, padding room⟩
  · rintro ⟨room, words'⟩
    exact ⟨room, words'.unique (padding room)⟩

end Quantity.IsExact

/-! ## Computations -/

/-- The computation gives these integers, which are not negative, one for each of `n` instances. It
fails if an instance is not admitted, or if an integer does not fit, and for no other reason. -/
structure Measures (x : Outcome Quantity) (n : Nat) (admitted : Nat → Prop) (exact : Nat → Int) :
    Prop where
  nonneg : ∀ k < n, admitted k → 0 ≤ exact k
  eq_ok_iff : ∀ q, x = .ok q ↔ (∀ k < n, admitted k) ∧ q.IsExact n exact

namespace Measures

variable {x y : Outcome Quantity} {n : Nat} {P Q : Nat → Prop} {f g : Nat → Int}

theorem fitsWord_of_le (measured : Measures x n P f) {k : Nat} (inside : k < n) (admitted : P k)
    (small : f k ≤ 2 ^ 63 - 1) : FitsWord (f k) := by
  have low := measured.nonneg k inside admitted
  constructor <;> omega

theorem exists_ok_iff (measured : Measures x n P f) :
    (∃ q, x = .ok q) ↔ (∀ k < n, P k) ∧ ∀ k < n, f k ≤ 2 ^ 63 - 1 := by
  simp only [measured.eq_ok_iff, exists_and_left]
  apply and_congr_right
  intro admitted
  constructor
  · rintro ⟨q, holds⟩ k inside
    have high := (holds.fits inside).2
    omega
  · intro small
    exact exists_isExact fun k inside => measured.fitsWord_of_le inside (admitted k inside) (small k inside)

theorem congr (measured : Measures x n P f) (admits : ∀ k < n, (P k ↔ Q k))
    (same : ∀ k < n, f k = g k) : Measures x n Q g := by
  refine ⟨fun k inside admitted => ?_, fun q => ?_⟩
  · rw [← same k inside]
    exact measured.nonneg k inside ((admits k inside).2 admitted)
  · rw [measured.eq_ok_iff]
    constructor
    · rintro ⟨admitted, holds⟩
      exact ⟨fun k inside => (admits k inside).1 (admitted k inside), holds.congr same⟩
    · rintro ⟨admitted, holds⟩
      exact ⟨fun k inside => (admits k inside).2 (admitted k inside),
        holds.congr fun k inside => (same k inside).symm⟩

theorem zero (n : Nat) : Measures (.ok (Quantity.zero (.array n))) n (fun _ => True) fun _ => 0 := by
  have holds : (Quantity.zero (.array n)).IsExact n fun _ => 0 :=
    ⟨_, rfl, exactWords_replicate_zero n⟩
  refine ⟨fun _ _ _ => Int.le_refl 0, fun q => ?_⟩
  constructor
  · intro same
    cases same
    exact ⟨fun _ _ => trivial, holds⟩
  · rintro ⟨-, holds'⟩
    rw [holds.unique holds']

/-- Neither operand exceeds the sum, so no operand is lost to overflow that the sum would keep. -/
theorem add (left : Measures x n P f) (right : Measures y n Q g) :
    Measures (do let a ← x; let b ← y; a.add b) n (fun k => P k ∧ Q k) fun k => f k + g k := by
  refine ⟨fun k inside admitted => ?_, fun q => ?_⟩
  · exact Int.add_nonneg (left.nonneg k inside admitted.1) (right.nonneg k inside admitted.2)
  · simp only [bind_eq_ok_iff]
    constructor
    · rintro ⟨a, gotA, b, gotB, added⟩
      obtain ⟨admittedP, holdsA⟩ := (left.eq_ok_iff a).1 gotA
      obtain ⟨admittedQ, holdsB⟩ := (right.eq_ok_iff b).1 gotB
      exact ⟨fun k inside => ⟨admittedP k inside, admittedQ k inside⟩,
        (holdsA.add_eq_ok_iff holdsB).1 added⟩
    · rintro ⟨admitted, holds⟩
      have small : ∀ k < n, f k ≤ 2 ^ 63 - 1 ∧ g k ≤ 2 ^ 63 - 1 := by
        intro k inside
        have high := (holds.fits inside).2
        have lowF := left.nonneg k inside (admitted k inside).1
        have lowG := right.nonneg k inside (admitted k inside).2
        omega
      obtain ⟨a, gotA⟩ := left.exists_ok_iff.2
        ⟨fun k inside => (admitted k inside).1, fun k inside => (small k inside).1⟩
      obtain ⟨b, gotB⟩ := right.exists_ok_iff.2
        ⟨fun k inside => (admitted k inside).2, fun k inside => (small k inside).2⟩
      have holdsA := ((left.eq_ok_iff a).1 gotA).2
      have holdsB := ((right.eq_ok_iff b).1 gotB).2
      exact ⟨a, gotA, b, gotB, (holdsA.add_eq_ok_iff holdsB).2 holds⟩

end Measures

/-- The computation gives this integer, which is not negative. It fails if it is not admitted, or if the
integer does not fit, and for no other reason. -/
structure Yields (x : Outcome Int64) (admitted : Prop) (exact : Int) : Prop where
  nonneg : admitted → 0 ≤ exact
  eq_ok_iff : ∀ word, x = .ok word ↔ admitted ∧ word.toInt = exact

/-- No number of a quantity exceeds their total. -/
theorem Measures.total {x : Outcome Quantity} {n : Nat} {P : Nat → Prop} {f : Nat → Int}
    (measured : Measures x n P f) :
    Yields (x >>= Quantity.total) (∀ k < n, P k) (∑ k ∈ Finset.range n, f k) := by
  have nonneg (admitted : ∀ k < n, P k) : ∀ k ∈ Finset.range n, 0 ≤ f k := by
    intro k inside
    exact measured.nonneg k (Finset.mem_range.1 inside) (admitted k (Finset.mem_range.1 inside))
  refine ⟨fun admitted => Finset.sum_nonneg (nonneg admitted), fun word => ?_⟩
  rw [bind_eq_ok_iff]
  constructor
  · rintro ⟨q, got, added⟩
    obtain ⟨admitted, holds⟩ := (measured.eq_ok_iff q).1 got
    refine ⟨admitted, (holds.total_eq_ok_iff fun k inside => ?_).1 added⟩
    exact nonneg admitted k (Finset.mem_range.2 inside)
  · rintro ⟨admitted, whole⟩
    have small : ∀ k < n, f k ≤ 2 ^ 63 - 1 := by
      intro k inside
      have part := Finset.single_le_sum (nonneg admitted) (Finset.mem_range.2 inside)
      have high := (fitsWord_toInt word).2
      omega
    obtain ⟨q, got⟩ := measured.exists_ok_iff.2 ⟨admitted, small⟩
    have holds := ((measured.eq_ok_iff q).1 got).2
    refine ⟨q, got, (holds.total_eq_ok_iff fun k inside => ?_).2 whole⟩
    exact nonneg admitted k (Finset.mem_range.2 inside)

namespace Yields

variable {x y : Outcome Int64} {P Q : Prop} {m n : Int}

theorem exists_ok_iff (yields : Yields x P m) : (∃ word, x = .ok word) ↔ P ∧ m ≤ 2 ^ 63 - 1 := by
  simp only [yields.eq_ok_iff, exists_and_left]
  apply and_congr_right
  intro admitted
  have low := yields.nonneg admitted
  constructor
  · rintro ⟨word, same⟩
    have high := (fitsWord_toInt word).2
    omega
  · intro small
    exact ⟨Int64.ofInt m, toInt_ofInt_of_fitsWord (by constructor <;> omega)⟩

theorem zero : Yields (.ok 0) True 0 := by
  refine ⟨fun _ => Int.le_refl 0, fun word => ?_⟩
  rw [Except.ok.injEq, true_and, ← Int64.toInt_inj, Int64.toInt_zero]
  exact eq_comm

theorem add (left : Yields x P m) (right : Yields y Q n) :
    Yields (do let a ← x; let b ← y; checkedAdd a b) (P ∧ Q) (m + n) := by
  refine ⟨fun admitted => Int.add_nonneg (left.nonneg admitted.1) (right.nonneg admitted.2), fun word => ?_⟩
  simp only [bind_eq_ok_iff, checkedAdd_eq_ok_iff]
  constructor
  · rintro ⟨a, gotA, b, gotB, added⟩
    obtain ⟨admittedP, exactA⟩ := (left.eq_ok_iff a).1 gotA
    obtain ⟨admittedQ, exactB⟩ := (right.eq_ok_iff b).1 gotB
    exact ⟨⟨admittedP, admittedQ⟩, by rw [added, exactA, exactB]⟩
  · rintro ⟨⟨admittedP, admittedQ⟩, whole⟩
    have lowM := left.nonneg admittedP
    have lowN := right.nonneg admittedQ
    have high := (fitsWord_toInt word).2
    obtain ⟨a, gotA⟩ := left.exists_ok_iff.2 ⟨admittedP, by omega⟩
    obtain ⟨b, gotB⟩ := right.exists_ok_iff.2 ⟨admittedQ, by omega⟩
    refine ⟨a, gotA, b, gotB, ?_⟩
    rw [whole, ((left.eq_ok_iff a).1 gotA).2, ((right.eq_ok_iff b).1 gotB).2]

/-- Adding up the results of many computations, one after the other. -/
theorem foldlM {α : Type} {items : List α} {f : α → Outcome Int64} {R : α → Prop} {exact : α → Int}
    (start : Yields x P m) (steps : ∀ i ∈ items, Yields (f i) (R i) (exact i)) :
    Yields (x >>= fun sum => items.foldlM (fun sum i => do let more ← f i; checkedAdd sum more) sum)
      (P ∧ ∀ i ∈ items, R i) (m + (items.map exact).sum) := by
  induction items generalizing x P m with
  | nil => simpa using start
  | cons i items ih =>
    obtain ⟨step, rest⟩ := List.forall_mem_cons.1 steps
    have added := ih (start.add step) rest
    simp only [List.foldlM_cons, ← bind_assoc, List.forall_mem_cons, List.map_cons, List.sum_cons,
      and_assoc, Int.add_assoc] at added ⊢
    exact added

end Yields

end IntervalStats
