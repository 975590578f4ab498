import Mathlib.Data.List.Forall2
import IntervalStats.Failure
import IntervalStats.Logged

/-!
# Computations that succeed and that fail

A sequence of computations succeeds exactly when each of its steps does, and so do the traversals of
lists that the model is built from. The statements are equivalences with `.ok` on one side, so a
successful run is taken apart from the left and put together from the right by the same lemmas. The
outcome of a logged traversal is the traversal of the outcomes. What is known of the failures of each step
is known of the failures of all of them (`Outcome.FailsWith`).
-/

namespace IntervalStats

theorem exists_mem_of_forall₂ {α β : Type} {R : α → β → Prop} {as : List α} {bs : List β} {a : α}
    (related : List.Forall₂ R as bs) (member : a ∈ as) : ∃ b ∈ bs, R a b := by
  induction related with
  | nil => cases member
  | cons first _ ih =>
    rcases List.mem_cons.1 member with rfl | later
    · exact ⟨_, List.mem_cons_self .., first⟩
    · obtain ⟨b, listed, holds⟩ := ih later
      exact ⟨b, List.mem_cons_of_mem _ listed, holds⟩

section Except

variable {ε α β : Type}

theorem ok_bind (a : α) (f : α → Except ε β) : (Except.ok a >>= f) = f a := rfl

theorem bind_eq_ok_iff {x : Except ε α} {f : α → Except ε β} {b : β} :
    x >>= f = .ok b ↔ ∃ a, x = .ok a ∧ f a = .ok b := by
  cases x with
  | ok a => simp [bind, Except.bind]
  | error e => simp [bind, Except.bind]

theorem bind_eq_error_iff {x : Except ε α} {f : α → Except ε β} {e : ε} :
    x >>= f = .error e ↔ x = .error e ∨ ∃ a, x = .ok a ∧ f a = .error e := by
  cases x with
  | ok a => simp [bind, Except.bind]
  | error e => simp [bind, Except.bind]

theorem map_eq_ok_iff {x : Except ε α} {f : α → β} {b : β} :
    f <$> x = .ok b ↔ ∃ a, x = .ok a ∧ f a = b := by
  cases x with
  | ok a => simp [Functor.map, Except.map]
  | error e => simp [Functor.map, Except.map]

theorem map_eq_error_iff {x : Except ε α} {f : α → β} {e : ε} : f <$> x = .error e ↔ x = .error e := by
  cases x with
  | ok a => simp [Functor.map, Except.map]
  | error e => simp [Functor.map, Except.map]

theorem pure_eq_ok_iff {a b : α} : (pure a : Except ε α) = .ok b ↔ a = b := by
  simp [pure, Except.pure]

theorem isOk_iff {x : Except ε α} : x.isOk = true ↔ ∃ a, x = .ok a := by
  cases x with
  | ok a => simp [Except.isOk, Except.toBool]
  | error e => simp [Except.isOk, Except.toBool]

theorem mapError_eq_ok_iff {δ : Type} {x : Except ε α} {f : ε → δ} {a : α} :
    x.mapError f = .ok a ↔ x = .ok a := by
  cases x with
  | ok b => simp [Except.mapError]
  | error e => simp [Except.mapError]

theorem forM_eq_ok_iff {f : α → Except ε Unit} {as : List α} {u : Unit} :
    as.forM f = .ok u ↔ ∀ a ∈ as, f a = .ok () := by
  induction as with
  | nil => simp [List.forM, pure, Except.pure]
  | cons a as ih =>
    rw [List.forM, bind_eq_ok_iff, List.forall_mem_cons, ← ih]
    constructor
    · rintro ⟨_, first, rest⟩
      exact ⟨first, rest⟩
    · rintro ⟨first, rest⟩
      exact ⟨(), first, rest⟩

theorem exists_of_forM_eq_error {f : α → Except ε Unit} {as : List α} {e : ε}
    (failed : as.forM f = .error e) : ∃ a ∈ as, f a = .error e := by
  induction as with
  | nil => cases failed
  | cons a as ih =>
    rcases bind_eq_error_iff.1 failed with first | ⟨_, -, later⟩
    · exact ⟨a, List.mem_cons_self .., first⟩
    · obtain ⟨b, listed, stopped⟩ := ih later
      exact ⟨b, List.mem_cons_of_mem _ listed, stopped⟩

theorem forM_congr {f g : α → Except ε Unit} {as : List α} (same : ∀ a ∈ as, f a = g a) :
    as.forM f = as.forM g := by
  induction as with
  | nil => rfl
  | cons a as ih =>
    obtain ⟨first, rest⟩ := List.forall_mem_cons.1 same
    rw [List.forM, List.forM, first, ih rest]

/-- A run that ends well takes a step that does at each element. -/
theorem exists_step_of_foldlM {f : β → α → Except ε β} {as : List α} {a : α} {b c : β}
    (run : as.foldlM f b = .ok c) (member : a ∈ as) : ∃ b' c', f b' a = .ok c' := by
  induction as generalizing b with
  | nil => cases member
  | cons head rest ih =>
    rw [List.foldlM_cons, bind_eq_ok_iff] at run
    obtain ⟨next, step, run⟩ := run
    rcases List.mem_cons.1 member with rfl | later
    · exact ⟨b, next, step⟩
    · exact ih run later

/-- A run that fails takes steps that succeed up to the first one that fails. -/
theorem foldlM_eq_error_iff {f : β → α → Except ε β} {as : List α} {b : β} {e : ε} :
    as.foldlM f b = .error e ↔
      ∃ before a after c, as = before ++ a :: after ∧ before.foldlM f b = .ok c ∧ f c a = .error e := by
  induction as generalizing b with
  | nil => simp [pure, Except.pure]
  | cons head rest ih =>
    rw [List.foldlM_cons, bind_eq_error_iff]
    constructor
    · rintro (failed | ⟨next, step, failed⟩)
      · exact ⟨[], head, rest, b, rfl, rfl, failed⟩
      · obtain ⟨before, a, after, c, rfl, run, failed⟩ := ih.1 failed
        refine ⟨head :: before, a, after, c, rfl, ?_, failed⟩
        rw [List.foldlM_cons, step]
        exact run
    · rintro ⟨before, a, after, c, split, run, failed⟩
      cases before with
      | nil =>
        cases split
        cases pure_eq_ok_iff.1 run
        exact .inl failed
      | cons first before =>
        cases split
        rw [List.foldlM_cons, bind_eq_ok_iff] at run
        obtain ⟨next, step, run⟩ := run
        exact .inr ⟨next, step, ih.2 ⟨before, a, after, c, rfl, run, failed⟩⟩

theorem mapM_eq_ok_iff {f : α → Except ε β} {as : List α} {bs : List β} :
    as.mapM f = .ok bs ↔ List.Forall₂ (fun a b => f a = .ok b) as bs := by
  induction as generalizing bs with
  | nil => rw [List.mapM_nil, pure_eq_ok_iff, List.forall₂_nil_left_iff, eq_comm]
  | cons a as ih =>
    simp only [List.mapM_cons, bind_eq_ok_iff, pure_eq_ok_iff, ih, List.forall₂_cons_left_iff]
    constructor
    · rintro ⟨b, first, rest, others, rfl⟩
      exact ⟨b, rest, first, others, rfl⟩
    · rintro ⟨b, rest, first, others, rfl⟩
      exact ⟨b, first, rest, others, rfl⟩

theorem exists_mapM_eq_ok {f : α → Except ε β} {as : List α} (each : ∀ a ∈ as, ∃ b, f a = .ok b) :
    ∃ bs, as.mapM f = .ok bs := by
  induction as with
  | nil => exact ⟨[], rfl⟩
  | cons a as ih =>
    rw [List.forall_mem_cons] at each
    obtain ⟨b, first⟩ := each.1
    obtain ⟨bs, rest⟩ := ih each.2
    exact ⟨b :: bs, by rw [List.mapM_cons, first, rest]; rfl⟩

/-- Two computations on each element succeed one after the other exactly if all the first ones do and then
all the second ones. -/
theorem mapM_bind_eq_ok_iff {γ : Type} {f : α → Except ε β} {g : β → Except ε γ} {as : List α}
    {cs : List γ} :
    as.mapM (fun a => f a >>= g) = .ok cs ↔ ∃ bs, as.mapM f = .ok bs ∧ bs.mapM g = .ok cs := by
  simp only [mapM_eq_ok_iff, bind_eq_ok_iff]
  constructor
  · intro both
    induction both with
    | nil => exact ⟨[], .nil, .nil⟩
    | cons here _ ih =>
      obtain ⟨b, first, second⟩ := here
      obtain ⟨bs, firsts, seconds⟩ := ih
      exact ⟨b :: bs, .cons first firsts, .cons second seconds⟩
  · rintro ⟨bs, firsts, seconds⟩
    induction firsts generalizing cs with
    | nil =>
      cases seconds
      exact .nil
    | cons first _ ih =>
      cases seconds with
      | cons second rest => exact .cons ⟨_, first, second⟩ (ih rest)

/-- The first element that fails decides. -/
theorem mapM_eq_error_iff {f : α → Except ε β} {as : List α} {e : ε} :
    as.mapM f = .error e ↔
      ∃ before a after, as = before ++ a :: after ∧ (∀ b ∈ before, ∃ c, f b = .ok c) ∧
        f a = .error e := by
  induction as with
  | nil => simp [pure, Except.pure]
  | cons a as ih =>
    rw [List.mapM_cons]
    cases first : f a with
    | error e' =>
      constructor
      · intro failed
        cases failed
        exact ⟨[], a, as, rfl, List.forall_mem_nil _, first⟩
      · rintro ⟨before, b, after, split, succeed, failed⟩
        cases before with
        | nil =>
          cases split
          cases first.symm.trans failed
          rfl
        | cons c before =>
          cases split
          obtain ⟨_, good⟩ := succeed a (List.mem_cons_self ..)
          cases first.symm.trans good
    | ok c =>
      have rest : (Except.ok c >>= fun b => as.mapM f >>= fun bs => pure (b :: bs)) = .error e ↔
          as.mapM f = .error e := by
        cases as.mapM f <;> simp [bind, Except.bind, pure, Except.pure]
      rw [rest, ih]
      constructor
      · rintro ⟨before, b, after, rfl, succeed, failed⟩
        exact ⟨a :: before, b, after, rfl, List.forall_mem_cons.2 ⟨⟨c, first⟩, succeed⟩, failed⟩
      · rintro ⟨before, b, after, split, succeed, failed⟩
        cases before with
        | nil =>
          cases split
          cases first.symm.trans failed
        | cons d before =>
          cases split
          exact ⟨before, b, after, rfl, (List.forall_mem_cons.1 succeed).2, failed⟩

end Except

theorem mapM_eq_some_iff {α β : Type} {f : α → Option β} {as : List α} {bs : List β} :
    as.mapM f = some bs ↔ List.Forall₂ (fun a b => f a = some b) as bs := by
  induction as generalizing bs with
  | nil => rw [List.mapM_nil, List.forall₂_nil_left_iff, Option.pure_def, Option.some.injEq, eq_comm]
  | cons a as ih =>
    simp only [List.mapM_cons, Option.bind_eq_bind, Option.bind_eq_some_iff, Option.pure_def,
      Option.some.injEq, ih, List.forall₂_cons_left_iff]
    constructor
    · rintro ⟨b, first, rest, others, rfl⟩
      exact ⟨b, rest, first, others, rfl⟩
    · rintro ⟨b, rest, first, others, rfl⟩
      exact ⟨b, first, rest, others, rfl⟩

namespace Logged

variable {ι ε α β : Type}

theorem outcome_forM (f : α → Logged ι ε Unit) (as : List α) :
    (as.forM f).outcome = as.forM fun a => (f a).outcome := by
  induction as with
  | nil => rfl
  | cons a as ih =>
    rw [List.forM, List.forM, outcome_bind, ih]

theorem outcome_mapM (f : α → Logged ι ε β) (as : List α) :
    (as.mapM f).outcome = as.mapM fun a => (f a).outcome := by
  induction as with
  | nil => rfl
  | cons a as ih =>
    simp only [List.mapM_cons, outcome_bind, ih, outcome_pure]
    rfl

theorem outcome_foldlM (f : β → α → Logged ι ε β) (as : List α) (b : β) :
    (as.foldlM f b).outcome = as.foldlM (fun b a => (f b a).outcome) b := by
  induction as generalizing b with
  | nil => rfl
  | cons a as ih => simp only [List.foldlM_cons, outcome_bind, ih]

end Logged

theorem ofExcept_eq_ok_iff {α : Type} {x : Except Error α} {a : α} :
    Outcome.ofExcept x = .ok a ↔ x = .ok a := by
  cases x with
  | ok b => simp [Outcome.ofExcept]
  | error e => simp [Outcome.ofExcept, fail]

namespace Outcome

/-- Whatever the failure of the computation is, it has a property. -/
def FailsWith {α : Type} (P : Failure → Prop) (x : Outcome α) : Prop :=
  ∀ e, x = .error e → P e

namespace FailsWith

variable {α β : Type} {P : Failure → Prop} {x : Outcome α}

theorem ok (a : α) : FailsWith P (.ok a) := by
  intro e failed
  cases failed

theorem error {e : Failure} (holds : P e) : FailsWith P (.error e : Outcome α) := by
  intro e' failed
  cases failed
  exact holds

theorem bind {f : α → Outcome β} (first : FailsWith P x) (rest : ∀ a, FailsWith P (f a)) :
    FailsWith P (x >>= f) := by
  cases x with
  | ok a => exact rest a
  | error e => exact error (first e rfl)

theorem map {f : α → β} (first : FailsWith P x) : FailsWith P (f <$> x) := by
  cases x with
  | ok a => exact ok (f a)
  | error e => exact error (first e rfl)

theorem mapM {f : α → Outcome β} {as : List α} (each : ∀ a ∈ as, FailsWith P (f a)) :
    FailsWith P (as.mapM f) := by
  intro e failed
  obtain ⟨before, a, after, rfl, -, stopped⟩ := mapM_eq_error_iff.1 failed
  exact each a (by simp) e stopped

theorem foldlM {step : β → α → Outcome β} (each : ∀ b a, FailsWith P (step b a)) (as : List α)
    (start : β) : FailsWith P (as.foldlM step start) := by
  induction as generalizing start with
  | nil => exact ok start
  | cons a as ih =>
    rw [List.foldlM_cons]
    exact (each start a).bind ih

end FailsWith

end Outcome

/-- Joining succeeds exactly on lists of one length whose elements join at every position. -/
theorem joinExact_eq_ok_iff {α β γ : Type} {join : α → β → Outcome γ} {as : List α} {bs : List β}
    {cs : List γ} :
    joinExact join as bs = .ok cs ↔ as.length = cs.length ∧ bs.length = cs.length ∧
      ∀ (k : Nat) a b c, as[k]? = some a → bs[k]? = some b → cs[k]? = some c → join a b = .ok c := by
  induction as, bs using joinExact.induct generalizing cs with
  | case1 =>
    cases cs with
    | nil => simp [joinExact]
    | cons c cs => simp [joinExact]
  | case2 a as b bs ih =>
    simp only [joinExact, bind_eq_ok_iff, pure_eq_ok_iff, ih]
    constructor
    · rintro ⟨c, first, rest, ⟨left, right, others⟩, rfl⟩
      refine ⟨by simp [left], by simp [right], ?_⟩
      intro k
      cases k with
      | zero => simpa using first
      | succ k => simpa using others k
    · rintro ⟨left, right, all⟩
      cases cs with
      | nil => simp at left
      | cons c cs =>
        refine ⟨c, all 0 a b c rfl rfl rfl, cs, ⟨by simpa using left, by simpa using right, ?_⟩, rfl⟩
        intro k
        simpa using all (k + 1)
  | case3 as bs notNil notCons =>
    have unequal : as.length ≠ bs.length := by
      intro same
      cases as with
      | nil => exact notNil rfl (List.length_eq_zero_iff.1 same.symm)
      | cons a as =>
        cases bs with
        | nil => simp at same
        | cons b bs => exact notCons a as b bs rfl rfl
    rw [joinExact.eq_3 join as bs notNil notCons]
    constructor
    · intro stopped
      simp [halt] at stopped
    · rintro ⟨left, right, -⟩
      exact absurd (left.trans right.symm) unequal

/-- Joining lists of one length fails at a position of both. -/
theorem exists_of_joinExact_eq_error {α β γ : Type} {join : α → β → Outcome γ} {as : List α}
    {bs : List β} {e : Failure} (lengths : as.length = bs.length)
    (failed : joinExact join as bs = .error e) :
    ∃ (k : Nat) (a : α) (b : β), as[k]? = some a ∧ bs[k]? = some b ∧ join a b = .error e := by
  induction as generalizing bs with
  | nil =>
    obtain rfl := List.length_eq_zero_iff.1 lengths.symm
    cases failed
  | cons a as ih =>
    cases bs with
    | nil => simp at lengths
    | cons b bs =>
      rw [joinExact, bind_eq_error_iff] at failed
      rcases failed with first | ⟨c, -, rest⟩
      · exact ⟨0, a, b, rfl, rfl, first⟩
      · rcases bind_eq_error_iff.1 rest with later | ⟨cs, -, impossible⟩
        · obtain ⟨k, a', b', left, right, stopped⟩ := ih (Nat.succ.inj lengths) later
          exact ⟨k + 1, a', b', left, right, stopped⟩
        · cases impossible

end IntervalStats
