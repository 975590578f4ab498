import IntervalStats.Proofs.ElementwiseSum

/-!
# Arithmetic of quantities

A quantity is changed in place number by number, so a run that stops leaves the numbers before the stop
changed. A difference in shape is found before the first number is touched, and a run that ends well has
changed all numbers into what `Quantity.combine` gives (`Quantity.combine_eq_map_update`). `Reversible`
collects what follows for an operation that another one takes back, and `Quantity.arithmetic_reversible`
says it of addition and subtraction, together with what a sum does to the totals.

Subtracting several parts in turn is one subtraction of their exact sum (`Quantity.foldlM_sub_eq_ok_iff`).
-/

namespace IntervalStats

/-- Overwriting ends as joining does, and where it ends well the words are the joined ones. -/
theorem joinExact_eq_map_overwrite (op : Int64 → Int64 → Outcome Int64) (xs ys : List Int64) :
    joinExact op xs ys = (fun _ => (overwrite op xs ys).1) <$> (overwrite op xs ys).2 := by
  fun_induction overwrite op xs ys with
  | case1 => rfl
  | case2 x xs y ys z joined zs ending rest ih =>
    rw [joinExact, joined, ok_bind, ih, rest]
    cases ending <;> rfl
  | case3 x xs y ys e failed =>
    rw [joinExact, failed]
    rfl
  | case4 xs ys notNil notCons =>
    rw [joinExact.eq_3 op xs ys notNil notCons]
    rfl

namespace Quantity

variable {a b q : Quantity} {op : Int64 → Int64 → Outcome Int64}

/-! ## In place -/

theorem combine_eq_map_update (op : Int64 → Int64 → Outcome Int64) (a b : Quantity) :
    combine op a b = (fun _ => (update op a b).after) <$> (update op a b).ending := by
  cases a with
  | scalar x =>
    cases b with
    | scalar y =>
      rw [combine, update]
      cases op x y <;> rfl
    | array ys => rfl
  | array xs =>
    cases b with
    | scalar y => rfl
    | array ys =>
      rw [combine, update]
      split
      · rw [joinExact_eq_map_overwrite]
        cases (overwrite op xs ys).2 <;> rfl
      · rfl

theorem update_of_combine (joined : combine op a b = .ok q) : update op a b = ⟨q, .ok ()⟩ := by
  rw [combine_eq_map_update, map_eq_ok_iff] at joined
  obtain ⟨_, ended, rfl⟩ := joined
  rw [← ended]

theorem ending_eq_ok_iff : (update op a b).ending = .ok () ↔ ∃ q, combine op a b = .ok q := by
  constructor
  · intro ended
    refine ⟨(update op a b).after, ?_⟩
    rw [combine_eq_map_update, ended]
    rfl
  · intro ⟨q, joined⟩
    rw [update_of_combine joined]

theorem ending_eq_error_iff {e : Failure} :
    (update op a b).ending = .error e ↔ combine op a b = .error e := by
  rw [combine_eq_map_update, map_eq_error_iff]

/-- The shapes are compared before anything is changed. -/
theorem update_of_shape_ne (unequal : a.shape ≠ b.shape) :
    update op a b = ⟨a, fail (.shapeMismatch "Element-wise operand" a.shape.size b.shape.size)⟩ := by
  cases a with
  | scalar x =>
    cases b with
    | scalar y => exact absurd rfl unequal
    | array ys => rfl
  | array xs =>
    cases b with
    | scalar y => rfl
    | array ys =>
      rw [update, if_neg]
      · rfl
      · intro same
        exact unequal (congrArg Shape.array same)

/-! ## Exact and reversible -/

/-- The operation in place joins the numbers of two quantities exactly. It succeeds where the shapes are
equal and a signed word holds every join; another operation then takes it back. If the shapes differ it
stops with the numbers of elements and changes nothing, and else it stops with a fault. -/
structure Reversible (act undo : Quantity → Quantity → Update) (join : Int → Int → Int) (fault : Fault)
    (a b : Quantity) : Prop where
  succeeds_iff : (act a b).ending = .ok () ↔
    a.shape = b.shape ∧ ∀ k < a.shape.size, FitsWord (join (a.exact k) (b.exact k))
  exact : (act a b).ending = .ok () → (act a b).after.shape = a.shape ∧
    ∀ k < a.shape.size, (act a b).after.exact k = join (a.exact k) (b.exact k)
  undone : (act a b).ending = .ok () → undo (act a b).after b = ⟨a, .ok ()⟩
  fails : ∀ e, (act a b).ending = .error e →
    (a.shape ≠ b.shape ∧ (act a b).after = a ∧
      e = .error (.shapeMismatch "Element-wise operand" a.shape.size b.shape.size)) ∨
    (a.shape = b.shape ∧ e = .fault fault)

theorem IsJoin.inverse {join unjoin : Int → Int → Int} (cancel : ∀ x y, unjoin (join x y) y = x)
    (joined : q.IsJoin join a b) : a.IsJoin unjoin q b := by
  obtain ⟨left, right, joins⟩ := joined
  refine ⟨left.symm, right.trans left.symm, fun k inside => ?_⟩
  rw [joins k (left ▸ inside), cancel]

theorem update_reversible {undo : Int64 → Int64 → Outcome Int64} {join unjoin : Int → Int → Int}
    {fault : Fault} (spec : ∀ {x y z}, op x y = .ok z ↔ z.toInt = join x.toInt y.toInt)
    (undoSpec : ∀ {x y z}, undo x y = .ok z ↔ z.toInt = unjoin x.toInt y.toInt)
    (cancel : ∀ x y, unjoin (join x y) y = x)
    (stops : ∀ x y, Outcome.FailsWith (· = .fault fault) (op x y)) (a b : Quantity) :
    Reversible (update op) (update undo) join fault a b where
  succeeds_iff := by
    rw [ending_eq_ok_iff, ← exists_isJoin_iff]
    simp only [combine_eq_ok_iff spec]
  exact ended := by
    obtain ⟨q, joined⟩ := ending_eq_ok_iff.1 ended
    obtain ⟨left, -, joins⟩ := (combine_eq_ok_iff spec).1 joined
    rw [update_of_combine joined, left]
    exact ⟨rfl, joins⟩
  undone ended := by
    obtain ⟨q, joined⟩ := ending_eq_ok_iff.1 ended
    have back := ((combine_eq_ok_iff spec).1 joined).inverse cancel
    rw [update_of_combine joined]
    exact update_of_combine ((combine_eq_ok_iff undoSpec).2 back)
  fails e ended := by
    by_cases same : a.shape = b.shape
    · right
      refine ⟨same, ?_⟩
      apply failsWith_combine stops _ e (ending_eq_error_iff.1 ended)
      intro unequal
      exact absurd same unequal
    · left
      rw [update_of_shape_ne same] at ended ⊢
      cases ended
      exact ⟨same, rfl, rfl⟩

theorem increase_reversible (a b : Quantity) :
    Reversible increase decrease (· + ·) .addOverflow a b :=
  update_reversible checkedAdd_eq_ok_iff checkedSub_eq_ok_iff Int.add_sub_cancel
    (fun _ _ => failsWith_wordOf (P := (· = .fault .addOverflow)) rfl _) a b

theorem decrease_reversible (a b : Quantity) :
    Reversible decrease increase (· - ·) .subtractOverflow a b :=
  update_reversible checkedSub_eq_ok_iff checkedAdd_eq_ok_iff Int.sub_add_cancel
    (fun _ _ => failsWith_wordOf (P := (· = .fault .subtractOverflow)) rfl _) a b

/-! ## Totals -/

/-- A total that is found is the exact sum of the numbers, whatever their signs. -/
theorem toInt_of_total {total : Int64} (summed : q.total = .ok total) :
    total.toInt = ∑ k ∈ Finset.range q.shape.size, q.exact k := by
  cases q with
  | scalar value =>
    cases summed
    show total.toInt = ∑ k ∈ Finset.range 1, (scalar total).exact k
    rw [Finset.sum_range_one]
    rfl
  | array values =>
    have sum := toInt_of_foldlM_checkedAdd (show values.foldlM checkedAdd 0 = .ok total from summed)
    rw [Int64.toInt_zero, Int.zero_add] at sum
    rw [sum]
    exact isExact_exact.elements.sum_toInt

theorem IsSum.sum_exact (sum : q.IsSum a b) :
    ∑ k ∈ Finset.range q.shape.size, q.exact k =
      ∑ k ∈ Finset.range a.shape.size, a.exact k + ∑ k ∈ Finset.range b.shape.size, b.exact k := by
  rw [sum.1, sum.2.1, ← Finset.sum_add_distrib]
  exact Finset.sum_congr rfl fun k _ => sum.exact_eq k

/-- Adding to a quantity and subtracting from it are exact and take each other back. A single number never
has the shape of a list, not even of a list of one number. Where all three totals are found, the total of
a sum is the sum of the totals. -/
theorem arithmetic_reversible (a b : Quantity) :
    Reversible increase decrease (· + ·) .addOverflow a b ∧
    Reversible decrease increase (· - ·) .subtractOverflow a b ∧
    (∀ x ys, (scalar x).shape ≠ (array ys).shape) ∧
    ∀ s t u, (a.increase b).ending = .ok () → a.total = .ok s → b.total = .ok t →
      (a.increase b).after.total = .ok u → u.toInt = s.toInt + t.toInt := by
  refine ⟨increase_reversible a b, decrease_reversible a b, nofun, ?_⟩
  intro s t u ended totalA totalB totalSum
  obtain ⟨q, added⟩ := ending_eq_ok_iff.1 ended
  have sum : q.IsSum a b := add_eq_ok_iff.1 added
  have after : a.increase b = ⟨q, .ok ()⟩ := update_of_combine added
  rw [after] at totalSum
  rw [toInt_of_total totalA, toInt_of_total totalB, toInt_of_total totalSum, sum.sum_exact]

/-- The extreme words meet without overflow, and the sum is taken back; a list of one number is not added to
a single number. -/
theorem arithmetic_reversible_sample :
    (array [9223372036854775807, -5]).increase (array [-9223372036854775808, 7]) =
      ⟨array [-1, 2], .ok ()⟩ ∧
    (array [-1, 2]).decrease (array [-9223372036854775808, 7]) =
      ⟨array [9223372036854775807, -5], .ok ()⟩ ∧
    (array [9223372036854775807, -5]).total = .ok 9223372036854775802 ∧
    (array [-9223372036854775808, 7]).total = .ok (-9223372036854775801) ∧
    (array [-1, 2]).total = .ok 1 ∧
    (1 : Int64).toInt = (9223372036854775802 : Int64).toInt + (-9223372036854775801 : Int64).toInt ∧
    (scalar 4).increase (array [4]) =
      ⟨scalar 4, fail (.shapeMismatch "Element-wise operand" 1 1)⟩ := by
  have added : (array [9223372036854775807, -5]).increase (array [-9223372036854775808, 7]) =
      ⟨array [-1, 2], .ok ()⟩ := rfl
  obtain ⟨sum, -, -, totals⟩ :=
    arithmetic_reversible (array [9223372036854775807, -5]) (array [-9223372036854775808, 7])
  have back := sum.undone (by rw [added])
  have total := totals 9223372036854775802 (-9223372036854775801) 1 (by rw [added]) rfl rfl
    (by rw [added]; rfl)
  rw [added] at back
  exact ⟨added, back, rfl, rfl, rfl, total, rfl⟩

/-! ## Parts taken away -/

/-- What is left of the whole when the parts are taken away: all have the shape of the whole, and each
number that is left is the exact one. -/
def IsRest (q whole : Quantity) (parts : List Quantity) : Prop :=
  q.shape = whole.shape ∧ (∀ part ∈ parts, part.shape = whole.shape) ∧
    ∀ k < whole.shape.size, q.exact k = whole.exact k - (parts.map fun part => part.exact k).sum

theorem isRest_of_perm {whole : Quantity} {parts order : List Quantity} (perm : order.Perm parts) :
    q.IsRest whole order ↔ q.IsRest whole parts := by
  have sums (k : Nat) : (order.map fun part => part.exact k).sum =
      (parts.map fun part => part.exact k).sum := (perm.map _).sum_eq
  simp only [IsRest, perm.mem_iff, sums]

theorem eq_of_exact (shaped : a.shape = b.shape) (same : ∀ k < b.shape.size, a.exact k = b.exact k) :
    a = b := by
  cases b with
  | scalar y =>
    cases a with
    | scalar x => exact congrArg scalar (Int64.toInt_inj.1 (same 0 Nat.one_pos))
    | array xs => cases shaped
  | array ys => exact (isExact_iff.2 ⟨shaped, same⟩).unique isExact_exact

theorem sub_eq_ok_iff : a.sub b = .ok q ↔ q.IsJoin (· - ·) a b :=
  combine_eq_ok_iff checkedSub_eq_ok_iff

theorem isRest_cons_iff {left part : Quantity} {parts : List Quantity}
    (taken : left.IsJoin (· - ·) a part) : q.IsRest a (part :: parts) ↔ q.IsRest left parts := by
  obtain ⟨whole, same, differences⟩ := taken
  have sums (k : Nat) (inside : k < left.shape.size) :
      left.exact k - (parts.map fun part => part.exact k).sum =
        a.exact k - ((part :: parts).map fun part => part.exact k).sum := by
    rw [differences k inside, List.map_cons, List.sum_cons, Int.sub_sub]
  rw [IsRest, IsRest, List.forall_mem_cons, whole]
  constructor
  · intro ⟨shaped, shapes, rest⟩
    refine ⟨shaped, shapes.2, fun k inside => ?_⟩
    rw [rest k inside, sums k inside]
  · intro ⟨shaped, shapes, rest⟩
    refine ⟨shaped, ⟨same, shapes⟩, fun k inside => ?_⟩
    rw [rest k inside, sums k inside]

theorem sum_exact_nonneg {parts : List Quantity} (nonneg : ∀ part ∈ parts, ∀ k, 0 ≤ part.exact k)
    (k : Nat) : 0 ≤ (parts.map fun part => part.exact k).sum := by
  apply List.sum_nonneg
  intro x listed
  obtain ⟨part, member, rfl⟩ := List.mem_map.1 listed
  exact nonneg part member k

/-- Parts that are not negative are taken away one by one. What is left at the end is the least of all
remainders, so only it can fail to fit. -/
theorem foldlM_sub_eq_ok_iff {parts : List Quantity} (nonneg : ∀ part ∈ parts, ∀ k, 0 ≤ part.exact k) :
    parts.foldlM sub a = .ok q ↔ q.IsRest a parts := by
  induction parts generalizing a with
  | nil =>
    rw [List.foldlM_nil, pure_eq_ok_iff]
    simp only [IsRest, List.map_nil, List.sum_nil, Int.sub_zero]
    constructor
    · intro same
      exact same ▸ ⟨rfl, List.forall_mem_nil _, fun _ _ => rfl⟩
    · intro ⟨shaped, _, same⟩
      exact (eq_of_exact shaped same).symm
  | cons part parts ih =>
    obtain ⟨first, others⟩ := List.forall_mem_cons.1 nonneg
    simp only [List.foldlM_cons, bind_eq_ok_iff, sub_eq_ok_iff, ih others]
    constructor
    · intro ⟨left, taken, rest⟩
      exact (isRest_cons_iff taken).2 rest
    · intro rest
      have fits : ∀ k < a.shape.size, FitsWord (a.exact k - part.exact k) := by
        intro k inside
        have low := (q.fitsWord_exact k).1
        have high := (a.fitsWord_exact k).2
        have positive := first k
        have more := sum_exact_nonneg others k
        rw [rest.2.2 k inside, List.map_cons, List.sum_cons] at low
        constructor <;> omega
      have shaped := rest.2.1 part (List.mem_cons_self ..)
      obtain ⟨left, taken⟩ := exists_isJoin_iff.2 ⟨shaped.symm, fits⟩
      exact ⟨left, taken, (isRest_cons_iff taken).1 rest⟩

/-- Something is left where the shapes are equal and no remainder falls below the least word. -/
theorem exists_isRest_iff {whole : Quantity} {parts : List Quantity}
    (nonneg : ∀ part ∈ parts, ∀ k, 0 ≤ part.exact k) :
    (∃ q : Quantity, q.IsRest whole parts) ↔ (∀ part ∈ parts, part.shape = whole.shape) ∧
      ∀ k < whole.shape.size, -2 ^ 63 ≤ whole.exact k - (parts.map fun part => part.exact k).sum := by
  constructor
  · intro ⟨q, _, shapes, rest⟩
    refine ⟨shapes, fun k inside => ?_⟩
    rw [← rest k inside]
    exact (q.fitsWord_exact k).1
  · intro ⟨shapes, least⟩
    have fits : ∀ k < whole.shape.size,
        FitsWord (whole.exact k - (parts.map fun part => part.exact k).sum) := by
      intro k inside
      have high := (whole.fitsWord_exact k).2
      have low := least k inside
      have positive := sum_exact_nonneg nonneg k
      constructor <;> omega
    obtain ⟨q, shaped, rest⟩ := exists_exact fits
    exact ⟨q, shaped, shapes, rest⟩

end Quantity

end IntervalStats
