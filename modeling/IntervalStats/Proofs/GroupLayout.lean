import Mathlib.Data.List.Chain
import Mathlib.Data.List.Infix
import IntervalStats.Config.GroupText
import IntervalStats.Json.Value

/-!
# Layout of configuration text

Configurations as a simulator prints them: settings and groups, each on lines of its own and indented by
any number of spaces. `Layout.print` is the printed text and `Layout.tree` what it says. A layout that
keeps to words for keys, to integers of 64 bits and to strings that no pass of the translation to JSON
takes for something else is well formed (`Layout.WellFormed`).
-/

namespace IntervalStats.GroupText

open Json (Tree)

/-! ## Literals -/

/-- The value of a setting. An integer may have the suffix of a long one. -/
inductive Literal where
  | integer (value : Int) (long : Bool)
  | flag (value : Bool)
  | text (content : String)
  deriving DecidableEq, Repr

namespace Literal

def print : Literal → List Char
  | integer value long => (Numeral.ofInt value).text ++ if long then ['L'] else []
  | flag true => ['t', 'r', 'u', 'e']
  | flag false => ['f', 'a', 'l', 's', 'e']
  | text content => '"' :: content.toList ++ ['"']

def tree : Literal → Tree
  | integer value _ => .ofInt value
  | flag value => .bool value
  | text content => .ofText content

end Literal

/-- No digit, of whatever script, has an `L` right after it. -/
def SuffixFree (cs : List Char) : Prop :=
  cs.IsChain fun a b => ¬(Text.isScriptDigit a = true ∧ b = 'L')

instance decidableSuffixFree : DecidablePred SuffixFree := fun cs =>
  inferInstanceAs (Decidable (cs.IsChain _))

/-- A string without quotes, escapes and control characters, and without anything that a pass of the
translation looks for. -/
structure IsContent (content : String) : Prop where
  plain : ∀ c ∈ content.toList, c ≠ '"' ∧ c ≠ '\\' ∧ 0x20 ≤ c.toNat
  noAssignment : ¬[' ', '=', ' '] <:+: content.toList
  noColon : ¬[' ', ':', ' '] <:+: content.toList
  suffixFree : SuffixFree content.toList

instance decidableIsContent : DecidablePred IsContent := fun content =>
  decidable_of_iff
    (content.toList.all (fun c => c != '"' && c != '\\' && Nat.ble 0x20 c.toNat) = true ∧
      ¬[' ', '=', ' '] <:+: content.toList ∧ ¬[' ', ':', ' '] <:+: content.toList ∧
      SuffixFree content.toList) <| by
    have plain : content.toList.all (fun c => c != '"' && c != '\\' && Nat.ble 0x20 c.toNat) = true ↔
        ∀ c ∈ content.toList, c ≠ '"' ∧ c ≠ '\\' ∧ 0x20 ≤ c.toNat := by
      simp [List.all_eq_true, and_assoc]
    rw [plain]
    exact ⟨fun ⟨plain, noAssignment, noColon, suffixFree⟩ => ⟨plain, noAssignment, noColon, suffixFree⟩,
      fun c => ⟨c.plain, c.noAssignment, c.noColon, c.suffixFree⟩⟩

/-- Integers are signed or unsigned words. -/
def Literal.WellFormed : Literal → Prop
  | integer value _ => -9223372036854775808 ≤ value ∧ value ≤ 18446744073709551615
  | flag _ => True
  | text content => IsContent content

instance Literal.decidableWellFormed : DecidablePred Literal.WellFormed
  | integer value _ =>
    inferInstanceAs (Decidable (-9223372036854775808 ≤ value ∧ value ≤ 18446744073709551615))
  | flag _ => inferInstanceAs (Decidable True)
  | text content => inferInstanceAs (Decidable (IsContent content))

/-! ## Settings and groups -/

def isKeyChar (c : Char) : Bool :=
  c.isAlphanum || c = '_' || c = '-' || c = '*'

structure IsKey (key : String) : Prop where
  nonempty : key.toList ≠ []
  chars : ∀ c ∈ key.toList, isKeyChar c = true
  suffixFree : SuffixFree key.toList

instance decidableIsKey : DecidablePred IsKey := fun key =>
  decidable_of_iff
    (key.toList.isEmpty = false ∧ key.toList.all isKeyChar = true ∧ SuffixFree key.toList)
    ⟨fun ⟨nonempty, chars, suffixFree⟩ =>
        ⟨List.isEmpty_eq_false_iff.1 nonempty, List.all_eq_true.1 chars, suffixFree⟩,
      fun k => ⟨List.isEmpty_eq_false_iff.2 k.nonempty, List.all_eq_true.2 k.chars, k.suffixFree⟩⟩

/-- The settings and groups of a group, in order. A group has its key, its two braces and its members on
lines of their own. -/
inductive Layout where
  | nil
  | setting (indent : Nat) (key : String) (literal : Literal) (rest : Layout)
  | group (indent : Nat) (key : String) (opening : Nat) (members : Layout) (closing : Nat) (rest : Layout)
  deriving DecidableEq, Repr

def spaces (n : Nat) : List Char :=
  List.replicate n ' '

namespace Layout

def print : Layout → List Char
  | nil => []
  | setting indent key literal rest =>
    spaces indent ++ key.toList ++ [' ', '=', ' '] ++ literal.print ++ [';', '\n'] ++ rest.print
  | group indent key opening members closing rest =>
    spaces indent ++ key.toList ++ [' ', ':', ' ', '\n']
      ++ spaces opening ++ ['\x7b', '\n'] ++ members.print ++ spaces closing ++ ['\x7d', ';', '\n']
      ++ rest.print

example : (group 0 "sys" 0 (setting 2 "lineSize" (.integer 64 true) nil) 0 nil).print =
    "sys : \n\x7b\n  lineSize = 64L;\n\x7d;\n".toList := by
  decide +kernel

/-- The keys with what they stand for. -/
def members : Layout → List (String × Tree)
  | nil => []
  | setting _ key literal rest => (key, literal.tree) :: rest.members
  | group _ key _ inner _ rest => (key, .ofMembers inner.members) :: rest.members

/-- What a layout says. -/
def tree (layout : Layout) : Tree :=
  .ofMembers layout.members

/-- How many groups stand inside each other. -/
def depth : Layout → Nat
  | nil => 0
  | setting _ _ _ rest => rest.depth
  | group _ _ _ inner _ rest => max (inner.depth + 1) rest.depth

/-- The keys of each group are words of their own, and all literals are well formed. -/
def WellFormed : Layout → Prop
  | nil => True
  | setting _ key literal rest =>
    IsKey key ∧ key ∉ rest.members.map Prod.fst ∧ literal.WellFormed ∧ rest.WellFormed
  | group _ key _ inner _ rest =>
    IsKey key ∧ key ∉ rest.members.map Prod.fst ∧ inner.WellFormed ∧ rest.WellFormed

instance decidableWellFormed : DecidablePred WellFormed
  | nil => inferInstanceAs (Decidable True)
  | setting _ key literal rest =>
    have := decidableWellFormed rest
    inferInstanceAs (Decidable
      (IsKey key ∧ key ∉ rest.members.map Prod.fst ∧ literal.WellFormed ∧ rest.WellFormed))
  | group _ key _ inner _ rest =>
    have := decidableWellFormed inner
    have := decidableWellFormed rest
    inferInstanceAs (Decidable
      (IsKey key ∧ key ∉ rest.members.map Prod.fst ∧ inner.WellFormed ∧ rest.WellFormed))

end Layout

end IntervalStats.GroupText
