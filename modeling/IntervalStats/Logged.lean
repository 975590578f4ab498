/-!
# Logged computations

A computation that may fail and that notes events on its way. The events up to a failure are kept.
Taking the outcome of a computation commutes with sequencing (`Logged.outcome_bind`), so what a
computation returns can be studied without its events.
-/

namespace IntervalStats

structure Logged (ι ε α : Type) where
  events : List ι
  outcome : Except ε α

namespace Logged

variable {ι ε α β : Type}

protected def pure (a : α) : Logged ι ε α := ⟨[], .ok a⟩

protected def bind (x : Logged ι ε α) (f : α → Logged ι ε β) : Logged ι ε β :=
  match x.outcome with
  | .ok a => ⟨x.events ++ (f a).events, (f a).outcome⟩
  | .error e => ⟨x.events, .error e⟩

instance : Monad (Logged ι ε) where
  pure := Logged.pure
  bind := Logged.bind

instance : LawfulMonad (Logged ι ε) := by
  refine LawfulMonad.mk' _ ?_ ?_ ?_
  · intro α x
    obtain ⟨events, outcome⟩ := x
    cases outcome with
    | ok a => exact congrArg (Logged.mk · _) (List.append_nil events)
    | error e => rfl
  · intro α β a f
    rfl
  · intro α β γ x f g
    change Logged.bind (Logged.bind x f) g = Logged.bind x fun a => Logged.bind (f a) g
    obtain ⟨events, outcome⟩ := x
    cases outcome with
    | error e => rfl
    | ok a =>
      unfold Logged.bind
      dsimp only
      cases (f a).outcome with
      | ok b => exact congrArg (Logged.mk · _) (List.append_assoc ..)
      | error e => rfl

/-- Notes an event. -/
def note (event : ι) : Logged ι ε Unit := ⟨[event], .ok ()⟩

/-- A result without events. -/
def ofExcept (result : Except ε α) : Logged ι ε α := ⟨[], result⟩

instance : MonadLift (Except ε) (Logged ι ε) where
  monadLift := ofExcept

/-- Fails without an event. -/
def fail (e : ε) : Logged ι ε α := ⟨[], .error e⟩

/-- The same events with another reason of failure. -/
def mapError {δ : Type} (f : ε → δ) (x : Logged ι ε α) : Logged ι δ α :=
  ⟨x.events, x.outcome.mapError f⟩

@[simp] theorem outcome_pure (a : α) : (pure a : Logged ι ε α).outcome = .ok a := rfl

@[simp] theorem outcome_bind (x : Logged ι ε α) (f : α → Logged ι ε β) :
    (x >>= f).outcome = x.outcome >>= fun a => (f a).outcome := by
  change (Logged.bind x f).outcome = _
  unfold Logged.bind
  cases x.outcome <;> rfl

@[simp] theorem outcome_note (event : ι) : (note event : Logged ι ε Unit).outcome = .ok () := rfl

@[simp] theorem outcome_ofExcept (result : Except ε α) :
    (ofExcept result : Logged ι ε α).outcome = result := rfl

@[simp] theorem outcome_fail (e : ε) : (fail e : Logged ι ε α).outcome = .error e := rfl

@[simp] theorem outcome_mapError {δ : Type} (f : ε → δ) (x : Logged ι ε α) :
    (x.mapError f).outcome = x.outcome.mapError f := rfl

end Logged

end IntervalStats
