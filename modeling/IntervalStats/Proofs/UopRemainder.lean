import IntervalStats.Rate
import IntervalStats.Proofs.QuantityArithmetic

/-!
# Micro-ops of no kind

The micro-ops of no kind are the total less all kinds, taken away one after the other. No kind is negative,
so each remainder is at least the last one, and only the last one can fail to be a word. It is found
exactly when all shapes are equal and it is one, in whatever order the kinds are taken away
(`UopTotals.generic_exact`).
-/

namespace IntervalStats

namespace Quantity

variable {a b q : Quantity}

theorem exact_nonneg_of_elements (nonneg : ∀ v ∈ q.elements, 0 ≤ v.toInt) (k : Nat) : 0 ≤ q.exact k := by
  by_cases inside : k < q.elements.length
  · rw [exact, List.getD_eq_getElem _ _ inside]
    exact nonneg _ (List.getElem_mem inside)
  · rw [exact_of_size_le (q.length_elements ▸ Nat.not_lt.1 inside)]

theorem cases_of_sub_eq_error {e : Failure} (failed : a.sub b = .error e) :
    (a.shape ≠ b.shape ∧
      e = .error (.shapeMismatch "Element-wise operand" a.shape.size b.shape.size)) ∨
    e = .fault .subtractOverflow := by
  revert e failed
  apply failsWith_combine
  · intro x y
    exact failsWith_wordOf (.inr rfl) _
  · intro unequal
    exact .inl ⟨unequal, rfl⟩

/-- Taking parts away stops at a part of another shape, or with the fault. What was left before the stop has
the shape of the whole. -/
theorem cases_of_foldlM_sub_eq_error {parts : List Quantity} {e : Failure}
    (nonneg : ∀ part ∈ parts, ∀ k, 0 ≤ part.exact k) (failed : parts.foldlM sub a = .error e) :
    (∃ part ∈ parts, part.shape ≠ a.shape ∧
      e = .error (.shapeMismatch "Element-wise operand" a.shape.size part.shape.size)) ∨
    e = .fault .subtractOverflow := by
  obtain ⟨before, part, after, left, rfl, run, stopped⟩ := foldlM_eq_error_iff.1 failed
  have rest := (foldlM_sub_eq_ok_iff fun p member => nonneg p (List.mem_append_left _ member)).1 run
  rcases cases_of_sub_eq_error stopped with ⟨unequal, rfl⟩ | rfl
  · left
    rw [rest.1] at unequal ⊢
    exact ⟨part, by simp, Ne.symm unequal, rfl⟩
  · exact .inr rfl

end Quantity

namespace UopTotals

/-- The kinds have the shape of the total. -/
def OneShape (t : UopTotals) : Prop :=
  ∀ kind ∈ t.kinds, kind.shape = t.total.shape

/-- The total of an instance less its kinds, in integers. -/
def remainder (t : UopTotals) (k : Nat) : Int :=
  t.total.exact k -
    (t.loads.exact k + t.stores.exact k + t.branches.exact k + t.fpAddSub.exact k + t.fpMulDiv.exact k)

theorem remainder_eq (t : UopTotals) (k : Nat) :
    t.remainder k = t.total.exact k - (t.kinds.map fun kind => kind.exact k).sum := by
  simp only [remainder, kinds, List.map_cons, List.map_nil, List.sum_cons, List.sum_nil]
  omega

/-- If no kind is negative, the micro-ops of no kind are found exactly when the total and the kinds have one
shape and no remainder falls below the least word; they are then the exact remainders. Else a kind of
another shape is reported, or the subtraction overflows. The kinds may be taken away in any order. -/
theorem generic_exact (t : UopTotals) (nonneg : ∀ kind ∈ t.kinds, ∀ v ∈ kind.elements, 0 ≤ v.toInt) :
    ((∃ g, t.generic = .ok g) ↔ t.OneShape ∧ ∀ k < t.total.shape.size, -2 ^ 63 ≤ t.remainder k) ∧
    (∀ g, t.generic = .ok g →
      g.shape = t.total.shape ∧ ∀ k < t.total.shape.size, g.exact k = t.remainder k) ∧
    (∀ e, t.generic = .error e →
      (∃ kind ∈ t.kinds, kind.shape ≠ t.total.shape ∧
        e = .error (.shapeMismatch "Element-wise operand" t.total.shape.size kind.shape.size)) ∨
      e = .fault .subtractOverflow) ∧
    ∀ order : List Quantity, order.Perm t.kinds →
      ∀ g, order.foldlM Quantity.sub t.total = .ok g ↔ t.generic = .ok g := by
  have positive : ∀ kind ∈ t.kinds, ∀ k, 0 ≤ kind.exact k := by
    intro kind member
    exact Quantity.exact_nonneg_of_elements (nonneg kind member)
  have found (g : Quantity) : t.generic = .ok g ↔ g.IsRest t.total t.kinds :=
    Quantity.foldlM_sub_eq_ok_iff positive
  refine ⟨?_, ?_, ?_, ?_⟩
  · simp only [found, remainder_eq]
    exact Quantity.exists_isRest_iff positive
  · intro g left
    obtain ⟨shaped, -, rest⟩ := (found g).1 left
    simp only [remainder_eq]
    exact ⟨shaped, rest⟩
  · intro e failed
    exact Quantity.cases_of_foldlM_sub_eq_error positive failed
  · intro order perm g
    have others : ∀ kind ∈ order, ∀ k, 0 ≤ kind.exact k := by
      intro kind member
      exact positive kind (perm.mem_iff.1 member)
    rw [Quantity.foldlM_sub_eq_ok_iff others, found, Quantity.isRest_of_perm perm]

end UopTotals

namespace Sample

/-- Two cores; what is left on the first one is the least word. -/
def uops : UopTotals where
  total := .array [-9223372036854775788, 50]
  loads := .array [9, 10]
  stores := .array [4, 5]
  branches := .array [6, 5]
  fpAddSub := .array [0, 0]
  fpMulDiv := .array [1, 0]

end Sample

theorem UopTotals.generic_exact_sample :
    (∀ kind ∈ Sample.uops.kinds, ∀ v ∈ kind.elements, 0 ≤ v.toInt) ∧
    Sample.uops.generic = .ok (.array [-9223372036854775808, 30]) ∧
    Sample.uops.kinds.reverse.foldlM Quantity.sub Sample.uops.total =
      .ok (.array [-9223372036854775808, 30]) ∧
    Sample.uops.remainder 0 = -2 ^ 63 := by
  have nonneg : ∀ kind ∈ Sample.uops.kinds, ∀ v ∈ kind.elements, 0 ≤ v.toInt := by
    have all : ∀ kind ∈ Sample.uops.kinds, kind.elements.all (fun v => 0 ≤ v.toInt) = true := by decide
    intro kind member v listed
    exact of_decide_eq_true (List.all_eq_true.1 (all kind member) v listed)
  have left : Sample.uops.generic = .ok (.array [-9223372036854775808, 30]) := rfl
  obtain ⟨-, exact, -, anyOrder⟩ := UopTotals.generic_exact Sample.uops nonneg
  refine ⟨nonneg, left, ?_, ?_⟩
  · exact (anyOrder _ (List.reverse_perm _) _).2 left
  · exact ((exact _ left).2 0 (by decide)).symm

end IntervalStats
