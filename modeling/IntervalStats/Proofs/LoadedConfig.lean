import IntervalStats.Proofs.LoadedTrace

/-!
# Loaded configurations

When a configuration passes its checks (`Config.ofRaw_eq_ok_iff`), and what they say of each of its
caches: the name tells the level, and there is an instance (`Config.Checked`).
-/

namespace IntervalStats

theorem inContext_eq_ok_iff {α : Type} {text : String} {x : Except LoadError α} {a : α} :
    inContext text x = .ok a ↔ x = .ok a :=
  mapError_eq_ok_iff

theorem orCause_eq_ok_iff {α : Type} {cause : Cause} {x : Option α} {a : α} :
    orCause cause x = .ok a ↔ x = some a := by
  cases x <;> simp [orCause]

theorem orError_eq_ok_iff {α : Type} {x : Except Error α} {a : α} : orError x = .ok a ↔ x = .ok a := by
  cases x <;> simp [orError]

namespace Config

theorem cacheOf_eq_ok_iff {name : String} {value : Json.Tree} {cache : Cache} :
    cacheOf name value = .ok cache ↔
      ∃ id raw, CacheId.parse name = .ok id ∧ RawCache.ofTree? value = some raw ∧ raw.instances ≠ 0 ∧
        cache = ⟨id, raw.ways, raw.instances.toNat, raw.latency, raw.size⟩ := by
  simp only [cacheOf, bind_eq_ok_iff, orError_eq_ok_iff, inContext_eq_ok_iff, orCause_eq_ok_iff]
  constructor
  · rintro ⟨id, parsed, raw, read, checked⟩
    split at checked
    · cases checked
    · rename_i some
      cases checked
      exact ⟨id, raw, parsed, read, some, rfl⟩
  · rintro ⟨id, raw, parsed, read, some, rfl⟩
    refine ⟨id, parsed, raw, read, ?_⟩
    rw [if_neg some]
    rfl

/-- The entries among the caches that are caches. -/
def Raw.cacheEntries (raw : Raw) : List (String × Json.Tree) :=
  raw.caches.entries.filter (·.1 ≠ "MAProfCacheGroupNames")

theorem Raw.entries_erase (raw : Raw) : (raw.caches.erase ignoredEntry).entries = raw.cacheEntries :=
  rfl

section CachesOf

variable {table : Table Json.Tree}

theorem cachesOf_eq_ok_iff {caches : { caches : List Cache // (caches.map (·.id.name)).Nodup }} :
    cachesOf table = .ok caches ↔ ∃ checked,
      List.Forall₂ (fun e cache => cacheOf e.1 e.2 = .ok cache) table.entries checked ∧
        caches.val = checked.mergeSort fun a b => a.id.le b.id := by
  simp only [← mapM_eq_ok_iff]
  unfold cachesOf
  split
  · rename_i e failed
    constructor
    · intro ok
      cases ok
    · rintro ⟨checked, passed, -⟩
      cases failed.symm.trans passed
  · rename_i checked passed
    constructor
    · intro ok
      cases ok
      exact ⟨checked, passed, rfl⟩
    · rintro ⟨checked', passed', sorted⟩
      cases passed.symm.trans passed'
      exact congrArg Except.ok (Subtype.ext sorted.symm)

theorem cachesOf_eq_error_iff {e : LoadError} :
    cachesOf table = .error e ↔ table.entries.mapM (fun e => cacheOf e.1 e.2) = .error e := by
  unfold cachesOf
  split
  · rename_i failed
    rw [failed]
    simp only [Except.error.injEq]
  · rename_i passed
    simp only [passed, reduceCtorEq]

end CachesOf

theorem ofRaw_eq_ok_iff {raw : Raw} {config : Config} :
    ofRaw raw = .ok config ↔
      ∃ name group caches, raw.cores.entries = [(name, group)] ∧
        List.Forall₂ (fun e cache => cacheOf e.1 e.2 = .ok cache) raw.cacheEntries caches ∧
        config.caches = (caches.mergeSort fun a b => a.id.le b.id) ∧
        config.phaseLength = raw.phaseLength ∧ config.frequency = raw.frequency ∧
        config.lineSize = raw.lineSize ∧
        config.coreGroup = { name, cores := group.cores.toNat, kind := .ofName group.kind } := by
  unfold ofRaw
  split
  next name group one =>
    simp only [bind_eq_ok_iff, cachesOf_eq_ok_iff, pure_eq_ok_iff, Raw.entries_erase]
    constructor
    · rintro ⟨sorted, ⟨caches, each, arranged⟩, rfl⟩
      exact ⟨name, group, caches, one, each, arranged, rfl, rfl, rfl, rfl⟩
    · rintro ⟨name', group', caches, same, each, arranged, phase, frequency, line, cores⟩
      cases one.symm.trans same
      refine ⟨⟨config.caches, config.distinct⟩, ⟨caches, each, arranged⟩, ?_⟩
      ext1
      · exact phase.symm
      · exact frequency.symm
      · exact line.symm
      · exact cores.symm
      · rfl
  next other =>
    constructor
    · intro failed
      cases failed
    · rintro ⟨name, group, -, one, -⟩
      exact absurd one (other name group)

/-- Every cache has the level that its name begins with, and an instance. -/
structure Checked (config : Config) : Prop where
  named : ∀ cache ∈ config.caches, CacheId.parse cache.id.name = .ok cache.id
  present : ∀ cache ∈ config.caches, 0 < cache.instances

theorem checked_of_ofRaw {raw : Raw} {config : Config} (loaded : ofRaw raw = .ok config) :
    config.Checked := by
  obtain ⟨name, group, caches, -, each, arranged, -⟩ := ofRaw_eq_ok_iff.1 loaded
  have checks : ∀ cache ∈ config.caches,
      CacheId.parse cache.id.name = .ok cache.id ∧ 0 < cache.instances := by
    intro cache member
    rw [arranged] at member
    obtain ⟨entry, -, read⟩ := exists_mem_of_forall₂ each.flip (List.mem_mergeSort.1 member)
    obtain ⟨id, rawCache, parsed, -, some, rfl⟩ := cacheOf_eq_ok_iff.1 read
    refine ⟨CacheId.name_of_parse parsed ▸ parsed, Nat.pos_of_ne_zero fun none => some ?_⟩
    exact UInt64.toNat_inj.1 none
  exact ⟨fun cache member => (checks cache member).1, fun cache member => (checks cache member).2⟩

variable {config : Config}

theorem cacheLevels_le_iff {n : Nat} :
    config.cacheLevels ≤ n ↔ ∀ cache ∈ config.caches, cache.id.level ≤ n := by
  have reaches (caches : List Cache) (start : Nat) :
      caches.foldl (fun deepest c => max deepest c.id.level) start ≤ n ↔
        start ≤ n ∧ ∀ c ∈ caches, c.id.level ≤ n := by
    induction caches generalizing start with
    | nil => simp
    | cons c caches ih =>
      rw [List.foldl_cons, ih, List.forall_mem_cons, ← and_assoc, Nat.max_le]
  exact (reaches config.caches 0).trans (and_iff_right (Nat.zero_le n))

theorem level_le_cacheLevels {cache : Cache} (member : cache ∈ config.caches) :
    cache.id.level ≤ config.cacheLevels :=
  cacheLevels_le_iff.1 (Nat.le_refl _) cache member

theorem sharedCores_pos {cache : Cache} (some : 0 < cache.instances)
    (room : cache.instances ≤ config.cores) : 1 ≤ config.sharedCores cache :=
  Nat.div_pos room some

end Config

namespace Sample

/-- The sample with some of its caches, before it is checked. -/
def rawConfig (caches : List (String × Int)) : Config.Raw where
  phaseLength := 10000
  frequency := 2000
  lineSize := 64
  cores := .ofList [("westmere", ⟨2, "OOO"⟩)]
  caches := .ofList (caches.map fun c => (c.1, .ofMembers
    [("array", .ofMembers [("ways", .ofInt 8)]), ("caches", .ofInt c.2), ("latency", .ofInt 4),
      ("size", .ofInt 32768)]))

theorem ofRaw_rawConfig :
    Config.ofRaw (rawConfig [("l1d", 1), ("l1i", 2), ("l2", 1), ("l3", 1)]) = .ok config := by
  refine Config.ofRaw_eq_ok_iff.2
    ⟨"westmere", ⟨2, "OOO"⟩, config.caches, rfl, ?_, ?_, rfl, rfl, rfl, rfl⟩
  · exact .cons rfl (.cons rfl (.cons rfl (.cons rfl .nil)))
  · exact (List.mergeSort_of_pairwise (by decide)).symm

/-- The sample without its instruction cache and without a second level. -/
def sparse : Config :=
  { config with caches := [cache 1 "l1d" 1, cache 3 "l3" 1], distinct := by decide }

theorem ofRaw_sparse : Config.ofRaw (rawConfig [("l1d", 1), ("l3", 1)]) = .ok sparse := by
  refine Config.ofRaw_eq_ok_iff.2
    ⟨"westmere", ⟨2, "OOO"⟩, sparse.caches, rfl, ?_, ?_, rfl, rfl, rfl, rfl⟩
  · exact .cons rfl (.cons rfl .nil)
  · exact (List.mergeSort_of_pairwise (by decide)).symm

end Sample

end IntervalStats
