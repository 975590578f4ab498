import Mathlib.Data.Option.Basic
import IntervalStats.Characteristic

/-!
# Codes of characteristics

A text is read as a characteristic exactly if it is the code of that one (`Characteristic.codes_exact`). The
reader takes a code apart in stages: the letter of the outcome, the ending of the rates, and what is left
between them. Each stage is inverted by its own lemma. The stages can be put together since no code of
accesses has the ending of the rates (`AccessKind.beforeEnding?_code`).
-/

namespace IntervalStats

theorem AccessOutcome.ofLetter?_eq_some_iff {letter : Char} {outcome : AccessOutcome} :
    ofLetter? letter = some outcome ↔ [letter] = outcome.code := by
  constructor
  · intro read
    unfold ofLetter? at read
    split at read
    · cases read
      rfl
    · cases read
      rfl
    · cases read
      rfl
    · cases read
  · intro same
    cases outcome with
    | hits =>
      cases same
      rfl
    | misses =>
      cases same
      rfl
    | any =>
      cases same
      rfl

namespace AccessKind

theorem ofCode?_eq_some_iff {cs : List Char} {kind : AccessKind} :
    ofCode? cs = some kind ↔ cs = kind.code := by
  constructor
  · intro read
    unfold ofCode? at read
    split at read
    · cases read
      rfl
    · cases read
      rfl
    · cases read
      rfl
    · cases read
  · intro same
    subst same
    cases kind with
    | loads => rfl
    | stores => rfl
    | both => rfl

theorem beforeEnding?_code (kind : AccessKind) :
    Text.beforeEnding? Characteristic.perKiloEnding kind.code = none := by
  cases kind with
  | loads => rfl
  | stores => rfl
  | both => rfl

end AccessKind

namespace Characteristic

theorem parseAccesses?_eq_some_iff {cs : List Char} {kind : AccessKind} {perKilo : Bool} :
    parseAccesses? cs = some (kind, perKilo) ↔
      cs = kind.code ++ if perKilo then perKiloEnding else [] := by
  unfold parseAccesses?
  cases ended : Text.beforeEnding? perKiloEnding cs with
  | some front =>
    have split := Text.beforeEnding?_eq_some_iff.1 ended
    cases perKilo with
    | true => simp [AccessKind.ofCode?_eq_some_iff, split]
    | false =>
      -- a code of accesses alone has no such ending
      have other : cs ≠ kind.code := by
        intro same
        rw [same, kind.beforeEnding?_code] at ended
        cases ended
      simp [other]
  | none =>
    cases perKilo with
    | true =>
      have other : cs ≠ kind.code ++ perKiloEnding := by
        intro same
        rw [Text.beforeEnding?_eq_some_iff.2 same] at ended
        cases ended
      simp [other]
    | false => simp [AccessKind.ofCode?_eq_some_iff]

theorem codeChars_of_parse? {cs : List Char} {c : Characteristic} (read : parse? cs = some c) :
    cs = c.codeChars := by
  unfold parse? at read
  split at read
  · cases read
    rfl
  · cases read
    rfl
  · cases read
    rfl
  · rename_i letter rest _
    obtain ⟨outcome, first, read⟩ := Option.bind_eq_some_iff.1 read
    obtain ⟨⟨kind, perKilo⟩, accesses, read⟩ := Option.bind_eq_some_iff.1 read
    cases read
    rw [codeChars, ← AccessOutcome.ofLetter?_eq_some_iff.1 first, List.cons_append, List.cons_append,
      List.append_assoc, ← parseAccesses?_eq_some_iff.1 accesses, List.singleton_append]
  · cases read

theorem parse?_codeChars (c : Characteristic) : parse? c.codeChars = some c := by
  cases c with
  | cycles => rfl
  | instructions => rfl
  | instructionsPerCycle => rfl
  | cache outcome kind perKilo =>
    obtain ⟨letter, first⟩ : ∃ letter, [letter] = outcome.code := by
      cases outcome with
      | hits => exact ⟨'H', rfl⟩
      | misses => exact ⟨'M', rfl⟩
      | any => exact ⟨'A', rfl⟩
    rw [codeChars, ← first, List.cons_append, List.cons_append, List.append_assoc, List.singleton_append,
      parse?, AccessOutcome.ofLetter?_eq_some_iff.2 first, parseAccesses?_eq_some_iff.2 rfl]
    rfl

theorem parse?_eq_some_iff {cs : List Char} {c : Characteristic} :
    parse? cs = some c ↔ cs = c.codeChars := by
  constructor
  · exact codeChars_of_parse?
  · intro same
    rw [same, parse?_codeChars]

theorem eq_code_iff {text : String} {c : Characteristic} : text = c.code ↔ text.toList = c.codeChars := by
  rw [code, ← String.toList_inj, String.toList_ofList]

/-- A text is read as a characteristic exactly if it is its code, and every text that is no code is
refused with just that text. -/
theorem codes_exact (text : String) :
    (∀ c, parse text = .ok c ↔ text = c.code) ∧
    ∀ e, parse text = .error e ↔
      (∀ c : Characteristic, text ≠ c.code) ∧ e = .unsupportedCharacteristic text := by
  simp only [ne_eq, eq_code_iff, ← parse?_eq_some_iff]
  unfold parse
  cases read : parse? text.toList with
  | some c => simp
  | none => simp [eq_comm]

/-- Near codes: an ending twice, an outcome of two bytes, and a code in small letters. -/
example : ["CHLDPKIPKI", "CéLD", "CALDSTST", "ipc"].map (fun code => parse? code.toList) =
    [none, none, none, none] := by
  decide

end Characteristic

end IntervalStats
