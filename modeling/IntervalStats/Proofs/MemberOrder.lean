import Mathlib.Logic.Relation
import IntervalStats.Config.Basic
import IntervalStats.Proofs.JsonValue

/-!
# Order of members

Trees that differ in the order of members with different names (`Tree.Reordered`) are read as the same
configuration. Reordering goes by single swaps, so each reader is looked at for one swap anywhere in its
tree (`Respects`). A reader of a list of members then sees two members that changed places, or one member
that changed inside (`Shuffled`). Readers do not mind either if members whose names cannot be read change
places (`Tree.Exchange`, `Tree.Rearranged`).
-/

namespace IntervalStats

open Json (Tree)

/-! ## Lists -/

section Lists

variable {α β : Type} {Same Apart : α → α → Prop} {Same' Apart' : β → β → Prop}

/-- Two lists that differ in one place: two elements beside each other that are apart have changed places,
or one element stands for another that is the same in some sense. -/
inductive Shuffled (Same Apart : α → α → Prop) : List α → List α → Prop where
  | swap (front back : List α) {a b : α} (apart : Apart a b) :
      Shuffled Same Apart (front ++ a :: b :: back) (front ++ b :: a :: back)
  | change (front back : List α) {a b : α} (same : Same a b) :
      Shuffled Same Apart (front ++ a :: back) (front ++ b :: back)

theorem Shuffled.mapM {f : α → Option β} {xs ys : List α}
    (same : ∀ a b, Same a b → Option.Rel Same' (f a) (f b))
    (apart : ∀ a b a' b', Apart a b → f a = some a' → f b = some b' → Apart' a' b')
    (shuffled : Shuffled Same Apart xs ys) :
    Option.Rel (Shuffled Same' Apart') (xs.mapM f) (ys.mapM f) := by
  cases shuffled with
  | @swap front back a b differ =>
    simp only [List.mapM_append, List.mapM_cons, Option.bind_eq_bind, Option.pure_def]
    cases front.mapM f with
    | none => exact .none
    | some front' =>
      cases first : f a with
      | none => cases f b <;> exact .none
      | some a' =>
        cases second : f b with
        | none => exact .none
        | some b' =>
          cases back.mapM f with
          | none => exact .none
          | some back' => exact .some (.swap front' back' (apart a b a' b' differ first second))
  | @change front back a b alike =>
    simp only [List.mapM_append, List.mapM_cons, Option.bind_eq_bind, Option.pure_def]
    cases front.mapM f with
    | none => exact .none
    | some front' =>
      have related := same a b alike
      generalize f a = x, f b = y at related ⊢
      cases related with
      | none => exact .none
      | some related =>
        cases back.mapM f with
        | none => exact .none
        | some back' => exact .some (.change front' back' related)

theorem Shuffled.filter {keep : α → Bool} {xs ys : List α} (same : ∀ a b, Same a b → keep a = keep b)
    (shuffled : Shuffled Same Apart xs ys) :
    Shuffled Same Apart (xs.filter keep) (ys.filter keep) ∨ xs.filter keep = ys.filter keep := by
  cases shuffled with
  | @swap front back a b apart =>
    simp only [List.filter_append, List.filter_cons]
    cases keep a with
    | false => exact .inr rfl
    | true =>
      cases keep b with
      | false => exact .inr rfl
      | true => exact .inl (.swap _ _ apart)
  | @change front back a b alike =>
    simp only [List.filter_append, List.filter_cons, same a b alike]
    cases keep b with
    | false => exact .inr rfl
    | true => exact .inl (.change _ _ alike)

/-- A permutation of elements that are apart from each other goes by swaps of neighbours. -/
theorem reflTransGen_of_perm {R : List α → List α → Prop} (symm : ∀ {a b}, Apart a b → Apart b a)
    (swap : ∀ front back {a b}, Apart a b → R (front ++ a :: b :: back) (front ++ b :: a :: back))
    {xs ys : List α} (perm : xs.Perm ys) (apart : xs.Pairwise Apart) (front : List α) :
    Relation.ReflTransGen R (front ++ xs) (front ++ ys) := by
  induction perm generalizing front with
  | nil => exact .refl
  | cons a _ ih => simpa using ih (List.pairwise_cons.1 apart).2 (front ++ [a])
  | swap a b back =>
    exact .single (swap front back ((List.pairwise_cons.1 apart).1 a (List.mem_cons_self ..)))
  | trans first _ ih ih' =>
    exact (ih apart front).trans (ih' ((first.pairwise_iff symm).1 apart) front)

/-- Elements that change one after another. -/
theorem reflTransGen_of_forall₂ {R : List α → List α → Prop}
    (change : ∀ front back {a b}, Same a b →
      Relation.ReflTransGen R (front ++ a :: back) (front ++ b :: back))
    {xs ys : List α} (each : List.Forall₂ Same xs ys) (front : List α) :
    Relation.ReflTransGen R (front ++ xs) (front ++ ys) := by
  induction each generalizing front with
  | nil => exact .refl
  | @cons a b xs ys first _ ih =>
    have others := ih (front ++ [b])
    rw [List.append_assoc, List.append_assoc] at others
    exact (change front xs first).trans others

theorem rel_refl {R : α → α → Prop} (refl : ∀ a, R a a) (x : Option α) : Option.Rel R x x := by
  cases x with
  | none => exact .none
  | some a => exact .some (refl a)

theorem rel_imp {R S : α → β → Prop} (imp : ∀ a b, R a b → S a b) {x : Option α} {y : Option β}
    (related : Option.Rel R x y) : Option.Rel S x y := by
  cases related with
  | none => exact .none
  | some related => exact .some (imp _ _ related)

theorem bind_eq_of_rel {γ : Type} {R : α → β → Prop} {x : Option α} {y : Option β}
    {f : α → Option γ} {g : β → Option γ} (related : Option.Rel R x y)
    (same : ∀ a b, R a b → f a = g b) : x.bind f = y.bind g := by
  cases related with
  | none => rfl
  | some related => exact same _ _ related

theorem rel_bind {γ δ : Type} {R : α → β → Prop} {S : γ → δ → Prop} {x : Option α} {y : Option β}
    {f : α → Option γ} {g : β → Option δ} (related : Option.Rel R x y)
    (next : ∀ a b, R a b → Option.Rel S (f a) (g b)) : Option.Rel S (x.bind f) (y.bind g) := by
  cases related with
  | none => exact .none
  | some related => exact next _ _ related

theorem rel_mapM {R : β → β → Prop} {f g : α → Option β} (each : ∀ a, Option.Rel R (f a) (g a))
    (as : List α) : Option.Rel (List.Forall₂ R) (as.mapM f) (as.mapM g) := by
  induction as with
  | nil => exact .some .nil
  | cons a as ih =>
    rw [List.mapM_cons, List.mapM_cons]
    have first := each a
    generalize f a = x, g a = y at first ⊢
    cases first with
    | none => exact .none
    | some first =>
      generalize as.mapM f = xs, as.mapM g = ys at ih ⊢
      cases ih with
      | none => exact .none
      | some others => exact .some (.cons first others)

end Lists

/-! ## Tables -/

theorem Table.ofList_of_shuffled {α : Type} {xs ys : List (String × α)}
    (shuffled : Shuffled Eq (fun a b => a.1 ≠ b.1) xs ys) : Table.ofList xs = Table.ofList ys := by
  cases shuffled with
  | @swap front back a b different =>
    obtain ⟨⟨m, v⟩, ⟨k, w⟩⟩ := a, b
    apply Table.eq_of_get?
    intro n
    simp only [get?_ofList, List.reverse_append, List.reverse_cons, List.append_assoc,
      List.lookup_append, List.singleton_append, lookup_cons_ite]
    by_cases first : n = m
    · have other : n ≠ k := fun same => different (first.symm.trans same)
      simp only [if_pos first, if_neg other]
    · simp only [if_neg first]
  | @change front back a b same => rw [same]

namespace Json.Tree

/-- Two members beside each other in some object of the tree change places. They have different names. -/
inductive Swap : Tree → Tree → Prop where
  | swap (front back : List (Option String × Tree)) {m m' : Option String × Tree}
      (different : m.1 ≠ m'.1) :
      Swap (object (front ++ m :: m' :: back)) (object (front ++ m' :: m :: back))
  | item (front back : List Tree) {t u : Tree} (inner : Swap t u) :
      Swap (array (front ++ t :: back)) (array (front ++ u :: back))
  | member (front back : List (Option String × Tree)) (name : Option String) {t u : Tree}
      (inner : Swap t u) :
      Swap (object (front ++ (name, t) :: back)) (object (front ++ (name, u) :: back))

/-- The trees differ only in the order of members with different names. -/
def Reordered : Tree → Tree → Prop :=
  Relation.ReflTransGen Swap

theorem reordered_of_perm {ms ms' : List (Option String × Tree)} (perm : ms.Perm ms')
    (distinct : (ms.map Prod.fst).Nodup) (front : List (Option String × Tree)) :
    Reordered (object (front ++ ms)) (object (front ++ ms')) := by
  have steps := reflTransGen_of_perm (R := fun ms ms' => Swap (object ms) (object ms')) Ne.symm
    (fun front back {_ _} => .swap front back) perm (List.pairwise_map.1 distinct) front
  exact steps.lift object fun _ _ swap => swap

theorem reordered_of_forall₂ {ms ms' : List (Option String × Tree)}
    (each : List.Forall₂ (fun m m' => m.1 = m'.1 ∧ Reordered m.2 m'.2) ms ms')
    (front : List (Option String × Tree)) :
    Reordered (object (front ++ ms)) (object (front ++ ms')) := by
  have steps := reflTransGen_of_forall₂ (R := fun ms ms' => Swap (object ms) (object ms')) ?_ each front
  · exact steps.lift object fun _ _ swap => swap
  · rintro front back ⟨name, t⟩ ⟨_, u⟩ ⟨rfl, inner⟩
    exact inner.lift (fun t => front ++ (name, t) :: back) fun _ _ swap => .member front back name swap

/-- Two members beside each other in some object of the tree change places. They have different names, or
names that cannot be read. -/
inductive Exchange : Tree → Tree → Prop where
  | swap (front back : List (Option String × Tree)) {m m' : Option String × Tree}
      (different : m.1 = m'.1 → m.1 = none) :
      Exchange (object (front ++ m :: m' :: back)) (object (front ++ m' :: m :: back))
  | item (front back : List Tree) {t u : Tree} (inner : Exchange t u) :
      Exchange (array (front ++ t :: back)) (array (front ++ u :: back))
  | member (front back : List (Option String × Tree)) (name : Option String) {t u : Tree}
      (inner : Exchange t u) :
      Exchange (object (front ++ (name, t) :: back)) (object (front ++ (name, u) :: back))

/-- The trees differ only in the order of members that share no name. -/
def Rearranged : Tree → Tree → Prop :=
  Relation.ReflTransGen Exchange

theorem Swap.exchange {t u : Tree} (swap : Swap t u) : Exchange t u := by
  induction swap with
  | swap front back different => exact .swap front back fun same => absurd same different
  | item front back _ ih => exact .item front back ih
  | member front back name _ ih => exact .member front back name ih

theorem Reordered.rearranged {t u : Tree} (reordered : Reordered t u) : Rearranged t u :=
  reordered.lift id fun _ _ => Swap.exchange

theorem rearranged_object {ms ms' : List (Option String × Tree)}
    (each : List.Forall₂ (fun m m' => m.1 = m'.1 ∧ Rearranged m.2 m'.2) ms ms') :
    Rearranged (object ms) (object ms') := by
  have steps := reflTransGen_of_forall₂ (R := fun ms ms' => Exchange (object ms) (object ms')) ?_ each []
  · exact steps.lift object fun _ _ exchange => exchange
  · rintro front back ⟨name, t⟩ ⟨_, u⟩ ⟨rfl, inner⟩
    exact inner.lift (fun t => front ++ (name, t) :: back) fun _ _ exchange =>
      .member front back name exchange

theorem rearranged_array {items items' : List Tree} (each : List.Forall₂ Rearranged items items') :
    Rearranged (array items) (array items') := by
  have steps := reflTransGen_of_forall₂ (R := fun ts us => Exchange (array ts) (array us)) ?_ each []
  · exact steps.lift array fun _ _ exchange => exchange
  · intro front back t u inner
    exact inner.lift (fun t => front ++ t :: back) fun _ _ exchange => .item front back exchange

/-! ## Readers -/

/-- The same tree, but for two members that changed places. -/
def Alike : Tree → Tree → Prop :=
  Relation.ReflGen Exchange

/-- A reader that takes no notice of the order of members. -/
def Respects {α : Type} (read? : Tree → Option α) : Prop :=
  ∀ t u, Exchange t u → read? t = read? u

variable {t u : Tree}

theorem respects_unsigned? : Respects unsigned? := by
  intro t u exchange
  cases exchange <;> rfl

theorem respects_text? : Respects text? := by
  intro t u exchange
  cases exchange <;> rfl

/-- How the members of an object differ if two members somewhere in it changed places. -/
abbrev MembersShuffled : List (String × Tree) → List (String × Tree) → Prop :=
  Shuffled (fun m m' => m.1 = m'.1 ∧ Exchange m.2 m'.2) fun m m' => m.1 ≠ m'.1

theorem Exchange.members? (exchange : Exchange t u) :
    Option.Rel MembersShuffled t.members? u.members? := by
  have named {ms ms' : List (Option String × Tree)}
      (shuffled : Shuffled (fun m m' => m.1 = m'.1 ∧ Exchange m.2 m'.2)
        (fun m m' => m.1 = m'.1 → m.1 = none) ms ms') :
      Option.Rel MembersShuffled (object ms).members? (object ms').members? := by
    refine shuffled.mapM ?_ ?_
    · rintro ⟨name, value⟩ ⟨_, other⟩ ⟨rfl, inner⟩
      cases name with
      | none => exact .none
      | some name => exact .some ⟨rfl, inner⟩
    · rintro ⟨name, value⟩ ⟨name', value'⟩ a b different first second
      obtain ⟨n, rfl, rfl⟩ := Option.map_eq_some_iff.1 first
      obtain ⟨n', rfl, rfl⟩ := Option.map_eq_some_iff.1 second
      intro same
      cases different (congrArg some same)
  cases exchange with
  | swap front back different => exact named (.swap front back different)
  | item front back inner => exact .none
  | member front back name inner => exact named (.change front back ⟨rfl, inner⟩)

theorem rel_entries_of_shuffled {α : Type} {read? : Tree → Option α} (respects : Respects read?)
    {ms ms' : List (String × Tree)} (shuffled : MembersShuffled ms ms') :
    Option.Rel (fun xs ys => Table.ofList xs = Table.ofList ys)
      (ms.mapM fun m => (read? m.2).map fun value => (m.1, value))
      (ms'.mapM fun m => (read? m.2).map fun value => (m.1, value)) := by
  have entries : Option.Rel (Shuffled Eq fun a b => a.1 ≠ b.1)
      (ms.mapM fun m => (read? m.2).map fun value => (m.1, value))
      (ms'.mapM fun m => (read? m.2).map fun value => (m.1, value)) := by
    refine shuffled.mapM ?_ ?_
    · rintro ⟨name, value⟩ ⟨_, other⟩ ⟨rfl, inner⟩
      rw [respects value other inner]
      exact rel_refl (fun _ => rfl) _
    · rintro ⟨name, value⟩ ⟨name', value'⟩ a b different first second
      obtain ⟨_, -, rfl⟩ := Option.map_eq_some_iff.1 first
      obtain ⟨_, -, rfl⟩ := Option.map_eq_some_iff.1 second
      exact different
  exact rel_imp (fun _ _ => Table.ofList_of_shuffled) entries

theorem respects_table? {α : Type} {read? : Tree → Option α} (respects : Respects read?) :
    Respects (table? read?) := by
  intro t u exchange
  refine bind_eq_of_rel exchange.members? fun ms ms' shuffled => ?_
  refine bind_eq_of_rel (rel_entries_of_shuffled respects shuffled) fun xs ys same => ?_
  rw [same]

/-- Members chosen by their names. -/
theorem filter_of_shuffled {ms ms' : List (String × Tree)} (shuffled : MembersShuffled ms ms')
    (keep : String → Bool) :
    MembersShuffled (ms.filter fun m => keep m.1) (ms'.filter fun m => keep m.1) ∨
      (ms.filter fun m => keep m.1) = ms'.filter fun m => keep m.1 :=
  shuffled.filter fun _ _ alike => congrArg keep alike.1

theorem only?_of_shuffled {ms ms' : List (String × Tree)} (shuffled : MembersShuffled ms ms')
    (name : String) : Option.Rel Alike (only? ms name) (only? ms' name) := by
  unfold only?
  rcases filter_of_shuffled shuffled fun n => decide (n = name) with shuffled | same
  · generalize ms.filter _ = xs, ms'.filter _ = ys at shuffled ⊢
    cases shuffled with
    | swap front back different => rcases front with _ | ⟨_, _ | _⟩ <;> exact .none
    | change front back alike =>
      rcases front with _ | ⟨_, _ | _⟩
      · cases back with
        | nil => exact .some (Relation.ReflGen.single alike.2)
        | cons => exact .none
      · exact .none
      · exact .none
  · rw [same]
    exact rel_refl (fun _ => .refl) _

theorem forall₂_alike_refl (items : List Tree) : List.Forall₂ Alike items items :=
  List.forall₂_same.2 fun _ _ => .refl

theorem Exchange.record? (exchange : Exchange t u) (names : List String) :
    Option.Rel (List.Forall₂ Alike) (t.record? names) (u.record? names) := by
  have objects {ms ms' : List (Option String × Tree)} (exchange : Exchange (object ms) (object ms')) :
      Option.Rel (List.Forall₂ Alike) ((object ms).record? names) ((object ms').record? names) := by
    change Option.Rel _ ((object ms).members?.bind fun named => names.mapM (only? named))
      ((object ms').members?.bind fun named => names.mapM (only? named))
    exact rel_bind exchange.members? fun _ _ shuffled => rel_mapM (only?_of_shuffled shuffled) names
  cases exchange with
  | swap front back different => exact objects (.swap front back different)
  | member front back name inner => exact objects (.member front back name inner)
  | @item front back t u inner =>
    have items : List.Forall₂ Alike (front ++ t :: back) (front ++ u :: back) :=
      List.rel_append (forall₂_alike_refl front)
        (.cons (Relation.ReflGen.single inner) (forall₂_alike_refl back))
    rw [Tree.record?, Tree.record?, items.length_eq]
    split
    · exact .some items
    · exact .none

theorem Alike.bind_record? {α : Type} (alike : Alike t u) {names : List String}
    {f g : List Tree → Option α} (same : ∀ ts us, List.Forall₂ Alike ts us → f ts = g us) :
    (t.record? names).bind f = (u.record? names).bind g := by
  cases alike with
  | refl =>
    refine bind_eq_of_rel (rel_refl (R := Eq) (fun _ => rfl) _) ?_
    rintro ts _ rfl
    exact same ts ts (forall₂_alike_refl ts)
  | single exchange => exact bind_eq_of_rel (exchange.record? names) same

theorem Alike.eq_of_respects {α : Type} {read? : Tree → Option α} (respects : Respects read?)
    (alike : Alike t u) : read? t = read? u := by
  cases alike with
  | refl => rfl
  | single exchange => exact respects t u exchange

theorem Rearranged.eq_of_respects {α : Type} {read? : Tree → Option α} (respects : Respects read?)
    (rearranged : Rearranged t u) : read? t = read? u := by
  induction rearranged with
  | refl => rfl
  | tail _ exchange ih => exact ih.trans (respects _ _ exchange)

theorem plainMembers?_eq_mapM (room : Nat) (members : List (Option String × Tree)) :
    plainMembers? room members =
      members.mapM fun m => m.1.bind fun name => (plain? room m.2).map fun value => (name, value) := by
  induction members with
  | nil => simp [plainMembers?]
  | cons m members ih =>
    obtain ⟨name, value⟩ := m
    rw [plainMembers?, List.mapM_cons, ih]
    cases name with
    | none => rfl
    | some name => cases plain? room value <;> rfl

theorem plainItems?_eq_mapM (room : Nat) (items : List Tree) :
    plainItems? room items = items.mapM (plain? room) := by
  induction items with
  | nil => simp [plainItems?]
  | cons item items ih => rw [plainItems?, List.mapM_cons, ih]

theorem respects_plain? (room : Nat) : Respects (plain? room) := by
  intro t u exchange
  induction exchange generalizing room with
  | @swap front back m m' different =>
    rw [plain?, plain?, plainMembers?_eq_mapM, plainMembers?_eq_mapM, Option.map_eq_bind,
      Option.map_eq_bind]
    have entries : Option.Rel (Shuffled Eq fun a b => a.1 ≠ b.1)
        ((front ++ m :: m' :: back).mapM fun m =>
          m.1.bind fun name => (plain? (room - 1) m.2).map fun value => (name, value))
        ((front ++ m' :: m :: back).mapM fun m =>
          m.1.bind fun name => (plain? (room - 1) m.2).map fun value => (name, value)) := by
      have members : Shuffled Eq (fun a b => a.1 = b.1 → a.1 = none) (front ++ m :: m' :: back)
          (front ++ m' :: m :: back) :=
        .swap front back different
      refine members.mapM ?_ ?_
      · rintro a _ rfl
        exact rel_refl (fun _ => rfl) _
      · rintro ⟨name, value⟩ ⟨name', value'⟩ a b different first second
        obtain ⟨n, rfl, first⟩ := Option.bind_eq_some_iff.1 first
        obtain ⟨n', rfl, second⟩ := Option.bind_eq_some_iff.1 second
        obtain ⟨_, -, rfl⟩ := Option.map_eq_some_iff.1 first
        obtain ⟨_, -, rfl⟩ := Option.map_eq_some_iff.1 second
        intro same
        cases different (congrArg some same)
    split
    · rfl
    · refine bind_eq_of_rel entries fun xs ys shuffled => ?_
      rw [Function.comp_apply, Function.comp_apply, Table.ofList_of_shuffled shuffled]
  | item front back inner ih =>
    rw [plain?, plain?, plainItems?_eq_mapM, plainItems?_eq_mapM, List.mapM_append, List.mapM_append,
      List.mapM_cons, List.mapM_cons, ih]
  | member front back name inner ih =>
    rw [plain?, plain?, plainMembers?_eq_mapM, plainMembers?_eq_mapM, List.mapM_append,
      List.mapM_append, List.mapM_cons, List.mapM_cons, ih]

end Json.Tree

namespace Config

open Json.Tree

theorem RawCoreGroup.respects_ofTree? : Respects RawCoreGroup.ofTree? := by
  intro t u exchange
  refine Alike.bind_record? (.single exchange) fun ts us alike => ?_
  rcases alike with _ | ⟨cores, _ | ⟨kind, _ | _⟩⟩
  · rfl
  · rfl
  · simp only [cores.eq_of_respects respects_unsigned?, kind.eq_of_respects respects_text?]
  · rfl

theorem Raw.respects_ofTree? : Respects Raw.ofTree? := by
  intro t u exchange
  refine Alike.bind_record? (.single exchange) fun ts us alike => ?_
  rcases alike with _ | ⟨sim, _ | ⟨sys, _ | _⟩⟩
  · rfl
  · rfl
  · refine sim.bind_record? fun ts us alike => ?_
    rcases alike with _ | ⟨phaseLength, _ | _⟩
    · rfl
    · refine sys.bind_record? fun ts us alike => ?_
      rcases alike with _ | ⟨frequency, _ | ⟨lineSize, _ | ⟨cores, _ | ⟨caches, _ | _⟩⟩⟩⟩
      · rfl
      · rfl
      · rfl
      · rfl
      · simp only [phaseLength.eq_of_respects respects_unsigned?,
          frequency.eq_of_respects respects_unsigned?, lineSize.eq_of_respects respects_unsigned?,
          cores.eq_of_respects (respects_table? RawCoreGroup.respects_ofTree?),
          caches.eq_of_respects (respects_table? (respects_plain? _))]
      · rfl
    · rfl
  · rfl

/-- The order of members in a configuration does not matter. -/
theorem ofJson_of_reordered {json other : List Char} {t u : Tree} (parsed : Tree.parse? json = some t)
    (parsedOther : Tree.parse? other = some u) (reordered : t.Reordered u) :
    ofJson json = ofJson other := by
  have same := reordered.rearranged.eq_of_respects Raw.respects_ofTree?
  rw [ofJson, ofJson, Raw.parse?, Raw.parse?, parsed, parsedOther, Option.bind_some, Option.bind_some,
    same]

end Config

end IntervalStats
