import IntervalStats.Trace.Basic
import IntervalStats.Proofs.Outcome
import IntervalStats.Proofs.TableEntries

/-!
# Counters that are taken

A counter is gone from the stored snapshot once it is read, so a counter that is read twice would be
missing. `CounterReader.Takes` says which counters a computation takes, and that it gives what the
snapshot has as long as they are still there. Computations that take different counters follow each
other (`Takes.bind`, `Takes.mapM`). The counters of the cores and of the caches have names of their own,
and so do the caches of a configuration. So no counter is taken twice, also where the cores and a cache
share a component, and reading gives the same as looking each counter up in the whole snapshot
(`Snapshot.ofRaw_eq`).
-/

namespace IntervalStats

/-! ## Looking up -/

namespace RawSnapshot

/-- A counter that must have so many values, if it is there. -/
def checkCounter (s : RawSnapshot) (index : Nat) (component counter : String) (size : Nat) :
    Except Error (Option (List UInt64)) :=
  CounterReader.valuesOf index component counter size (s.counter? component counter)

/-- A counter that must be there, with so many values. -/
def requireCounter (s : RawSnapshot) (index : Nat) (component counter : String) (size : Nat) :
    Except Error Unit := do
  if (← s.checkCounter index component counter size).isNone then
    throw (.missingCounter component counter index)

def checkCore (s : RawSnapshot) (config : Config) (index : Nat) (c : CoreCounter) : Except Error Unit :=
  let group := config.coreGroup
  if c.isRequired then s.requireCounter index group.name c.name group.cores
  else (fun _ => ()) <$> s.checkCounter index group.name c.name group.cores

def checkCache (s : RawSnapshot) (index : Nat) (cache : Cache) (c : CacheCounter) : Except Error Unit :=
  if cache.id.lacks c then .ok () else s.requireCounter index cache.id.name c.name cache.instances

/-- The counters of the cores, each in turn, then those of every cache. -/
def check (s : RawSnapshot) (config : Config) (index : Nat) : Except Error Unit := do
  CoreCounter.all.forM (s.checkCore config index)
  config.caches.forM fun cache => CacheCounter.all.forM (s.checkCache index cache)

/-- The values of a counter, if it is there. -/
def values? (s : RawSnapshot) (component counter : String) : Option (List UInt64) :=
  (s.counter? component counter).map RawCounter.values

/-- The values of a counter of a cache. Caches beyond the first level have no filter hits. -/
def cacheValues (s : RawSnapshot) (cache : Cache) (c : CacheCounter) : List UInt64 :=
  if cache.id.lacks c then List.replicate cache.instances 0
  else (s.values? cache.id.name c.name).getD []

/-- The snapshot with the counters that a configuration calls for. -/
def view (s : RawSnapshot) (config : Config) : Snapshot where
  phase := s.phase
  mode := s.mode
  cores := CoreCounter.all.map fun c => s.values? config.coreGroup.name c.name
  caches := config.caches.map fun cache => CacheCounter.all.map (s.cacheValues cache)

variable {s : RawSnapshot} {config : Config}

/-- A counter that passes its check has the values that are stored. -/
theorem checkCounter_cases (s : RawSnapshot) (index : Nat) (component counter : String) (size : Nat) :
    (∃ e, s.checkCounter index component counter size = .error e) ∨
      s.checkCounter index component counter size = .ok (s.values? component counter) := by
  unfold checkCounter values?
  cases s.counter? component counter with
  | none => exact .inr rfl
  | some c =>
    unfold CounterReader.valuesOf
    dsimp only
    split
    · exact .inr rfl
    · exact .inl ⟨_, rfl⟩

theorem requireCounter_eq (s : RawSnapshot) (index : Nat) (component counter : String) (size : Nat) :
    s.requireCounter index component counter size = (do
      discard (s.checkCounter index component counter size)
      discard (CounterReader.orMissing index component counter (s.values? component counter))) := by
  unfold requireCounter
  rcases s.checkCounter_cases index component counter size with ⟨e, failed⟩ | passed
  · rw [failed]
    rfl
  · rw [passed]
    cases s.values? component counter <;> rfl

theorem checkCore_eq (s : RawSnapshot) (config : Config) (index : Nat) (c : CoreCounter) :
    s.checkCore config index c = (do
      discard (s.checkCounter index config.coreGroup.name c.name config.coreGroup.cores)
      if (s.values? config.coreGroup.name c.name).isNone && c.isRequired then
        throw (.missingCounter config.coreGroup.name c.name index)) := by
  unfold checkCore requireCounter
  rcases s.checkCounter_cases index config.coreGroup.name c.name config.coreGroup.cores with
    ⟨e, failed⟩ | passed
  · simp only [failed]
    cases c.isRequired <;> rfl
  · simp only [passed]
    cases s.values? config.coreGroup.name c.name <;> cases c.isRequired <;> rfl

@[simp] theorem core_view (c : CoreCounter) :
    (s.view config).core c = s.values? config.coreGroup.name c.name := by
  simp [view, Snapshot.core]

theorem cache_view {position : Nat} {cache : Cache} (present : config.caches[position]? = some cache)
    (c : CacheCounter) : (s.view config).cache position c = .ok (s.cacheValues cache c) := by
  simp [view, Snapshot.cache, present]

end RawSnapshot

/-! ## Taking -/

namespace CounterReader

variable {α β : Type} {s : RawSnapshot} {m : CounterReader α} {keys keys' : List (String × String)}
  {check check' : Except Error Unit} {a : α} {b : β}

/-- What is stored under the names of a component and a counter. -/
def stored? (components : Table (Table RawCounter)) (key : String × String) : Option RawCounter :=
  (components.get? key.1).bind (·.get? key.2)

/-- The computation takes no counters but some of the given ones. If none of these has been taken before
from a stored snapshot, it fails as a check does, and otherwise gives a value. -/
def Takes (s : RawSnapshot) (m : CounterReader α) (keys : List (String × String))
    (check : Except Error Unit) (a : α) : Prop :=
  ∀ left, (∀ key ∈ keys, stored? left key = stored? s.components key) →
    ∃ rest, m.run left = (fun _ => (a, rest)) <$> check ∧
      ∀ key, key ∉ keys → stored? rest key = stored? left key

/-- What takes no counter. -/
theorem takes_nil (same : ∀ left, m.run left = (fun _ => (a, left)) <$> check) :
    Takes s m [] check a :=
  fun left _ => ⟨left, same left, fun _ _ => rfl⟩

theorem Takes.mono (takes : Takes s m keys check a) (more : keys ⊆ keys') : Takes s m keys' check a := by
  intro left untouched
  obtain ⟨rest, taken, kept⟩ := takes left fun key listed => untouched key (more listed)
  exact ⟨rest, taken, fun key unlisted => kept key fun listed => unlisted (more listed)⟩

theorem Takes.bind {f : α → CounterReader β} (first : Takes s m keys check a)
    (next : Takes s (f a) keys' check' b) (apart : keys.Disjoint keys') :
    Takes s (m >>= f) (keys ++ keys') (do check; check') b := by
  intro left untouched
  obtain ⟨here, there⟩ := List.forall_mem_append.1 untouched
  obtain ⟨rest, taken, kept⟩ := first left here
  cases check with
  | error e =>
    refine ⟨left, ?_, fun _ _ => rfl⟩
    rw [StateT.run_bind, taken]
    rfl
  | ok u =>
    have still : ∀ key ∈ keys', stored? rest key = stored? s.components key := by
      intro key listed
      rw [kept key fun before => apart before listed, there key listed]
    obtain ⟨rest', taken', kept'⟩ := next rest still
    refine ⟨rest', ?_, fun key unlisted => ?_⟩
    · rw [StateT.run_bind, taken]
      exact taken'
    · rw [List.mem_append, not_or] at unlisted
      rw [kept' key unlisted.2, kept key unlisted.1]

/-- What takes no further counter. -/
theorem Takes.bind_nil {f : α → CounterReader β} (first : Takes s m keys check a)
    (next : Takes s (f a) [] check' b) : Takes s (m >>= f) keys (do check; check') b := by
  have both := first.bind next (List.disjoint_nil_right keys)
  rwa [List.append_nil] at both

theorem Takes.map (takes : Takes s m keys check a) (f : α → β) :
    Takes s (do let x ← m; return f x) keys check (f a) := by
  intro left untouched
  obtain ⟨rest, taken, kept⟩ := takes left untouched
  refine ⟨rest, ?_, kept⟩
  rw [StateT.run_bind, taken]
  cases check <;> rfl

/-- Computations on the elements of a list, none of which takes what another one takes. -/
theorem Takes.mapM {as : List α} {f : α → CounterReader β} {keys : α → List (String × String)}
    {check : α → Except Error Unit} {view : α → β}
    (each : ∀ a ∈ as, Takes s (f a) (keys a) (check a) (view a))
    (apart : as.Pairwise fun a b => (keys a).Disjoint (keys b)) :
    Takes s (as.mapM f) (as.flatMap keys) (as.forM check) (as.map view) := by
  induction as with
  | nil => exact takes_nil fun _ => rfl
  | cons a as ih =>
    obtain ⟨first, others⟩ := List.forall_mem_cons.1 each
    obtain ⟨before, apart⟩ := List.pairwise_cons.1 apart
    rw [List.mapM_cons]
    refine first.bind ((ih others apart).map (view a :: ·)) ?_
    intro key here there
    obtain ⟨b, listed, later⟩ := List.mem_flatMap.1 there
    exact before b listed here later

theorem takes_take? (component counter : String) :
    Takes s (take? component counter) [(component, counter)] (.ok ()) (s.counter? component counter) := by
  intro left untouched
  have still : stored? left (component, counter) = s.counter? component counter :=
    untouched _ (List.mem_singleton_self _)
  unfold stored? at still
  cases listed : left.get? component with
  | none =>
    rw [listed] at still
    refine ⟨left, ?_, fun _ _ => rfl⟩
    rw [← still]
    simp [take?, listed]
    rfl
  | some counters =>
    rw [listed] at still
    refine ⟨left.insert component (counters.erase counter), ?_, fun key other => ?_⟩
    · rw [← still]
      simp [take?, listed]
      rfl
    · obtain ⟨component', counter'⟩ := key
      simp only [stored?, Table.get?_insert]
      by_cases same : component' = component
      · have different : counter' ≠ counter := by simpa [same] using other
        simp [same, listed, different]
      · simp [same]

variable {config : Config} {index : Nat}

theorem takes_takeValues? (component counter : String) (size : Nat) :
    Takes s (takeValues? index component counter size) [(component, counter)]
      (discard (s.checkCounter index component counter size)) (s.values? component counter) := by
  refine (takes_take? component counter).bind_nil (takes_nil fun left => ?_)
  change StateT.run (StateT.lift (s.checkCounter index component counter size)) left = _
  rcases s.checkCounter_cases index component counter size with ⟨e, failed⟩ | passed
  · rw [failed]
    rfl
  · rw [passed]
    rfl

theorem takes_takeCore? (c : CoreCounter) :
    Takes s (takeCore? config index c) [(config.coreGroup.name, c.name)] (s.checkCore config index c)
      (s.values? config.coreGroup.name c.name) := by
  rw [s.checkCore_eq]
  refine (takes_takeValues? _ _ _).bind_nil (takes_nil fun left => ?_)
  cases s.values? config.coreGroup.name c.name <;> cases c.isRequired <;> rfl

theorem takes_takeCache (cache : Cache) (c : CacheCounter) :
    Takes s (takeCache index cache c) [(cache.id.name, c.name)] (s.checkCache index cache c)
      (s.cacheValues cache c) := by
  unfold takeCache RawSnapshot.checkCache RawSnapshot.cacheValues
  cases cache.id.lacks c with
  | true =>
    simp only [if_true]
    exact Takes.mono (takes_nil fun _ => rfl) (List.nil_subset _)
  | false =>
    simp only [Bool.false_eq_true, if_false]
    rw [s.requireCounter_eq]
    refine (takes_takeValues? _ _ _).bind_nil (takes_nil fun left => ?_)
    cases s.values? cache.id.name c.name <;> rfl

/-! ## Names of their own -/

/-- The names of the counters of the cores. -/
def coreKeys (config : Config) : List (String × String) :=
  CoreCounter.all.flatMap fun c => [(config.coreGroup.name, c.name)]

/-- The names of the counters of a cache. -/
def cacheKeys (cache : Cache) : List (String × String) :=
  CacheCounter.all.flatMap fun c => [(cache.id.name, c.name)]

theorem fst_of_mem_cacheKeys {cache : Cache} {key : String × String} (listed : key ∈ cacheKeys cache) :
    key.1 = cache.id.name := by
  obtain ⟨c, -, here⟩ := List.mem_flatMap.1 listed
  rw [List.mem_singleton.1 here]

theorem disjoint_of_ne {component counter other : String} (different : counter ≠ other) :
    [(component, counter)].Disjoint [(component, other)] := by
  simp [different.symm]

theorem takes_takeCores :
    Takes s (CoreCounter.all.mapM (takeCore? config index)) (coreKeys config)
      (CoreCounter.all.forM (s.checkCore config index)) (s.view config).cores := by
  have names : CoreCounter.all.Pairwise fun c d => c.name ≠ d.name := by decide
  exact Takes.mapM (fun c _ => takes_takeCore? c) (names.imp disjoint_of_ne)

theorem takes_takeCaches :
    Takes s (config.caches.mapM fun cache => CacheCounter.all.mapM (takeCache index cache))
      (config.caches.flatMap cacheKeys)
      (config.caches.forM fun cache => CacheCounter.all.forM (s.checkCache index cache))
      (s.view config).caches := by
  have names : CacheCounter.all.Pairwise fun c d => c.name ≠ d.name := by decide
  refine Takes.mapM (fun cache _ => ?_) ?_
  · exact Takes.mapM (fun c _ => takes_takeCache cache c) (names.imp disjoint_of_ne)
  · refine (List.pairwise_map.1 config.distinct).imp fun different key here there => different ?_
    rw [← fst_of_mem_cacheKeys here, fst_of_mem_cacheKeys there]

/-- The cores and the caches have no counter of one name, so they may share a component. -/
theorem disjoint_coreKeys_cacheKeys :
    (coreKeys config).Disjoint (config.caches.flatMap cacheKeys) := by
  have names : ∀ c ∈ CoreCounter.all, ∀ d ∈ CacheCounter.all, c.name ≠ d.name := by decide
  intro key here there
  obtain ⟨c, listed, rfl⟩ : ∃ c ∈ CoreCounter.all, key = (config.coreGroup.name, c.name) := by
    simpa [coreKeys, eq_comm] using here
  obtain ⟨cache, -, d, listed', -, same⟩ : ∃ cache ∈ config.caches, ∃ d ∈ CacheCounter.all,
      config.coreGroup.name = cache.id.name ∧ c.name = d.name := by
    simpa [cacheKeys] using there
  exact names c listed d listed' same

theorem takes_takeAll :
    Takes s (takeAll config index) (coreKeys config ++ config.caches.flatMap cacheKeys)
      (s.check config index) ((s.view config).cores, (s.view config).caches) := by
  refine takes_takeCores.bind ?_ disjoint_coreKeys_cacheKeys
  exact takes_takeCaches.map ((s.view config).cores, ·)

end CounterReader

/-- Taking the counters out one after the other gives what looking them up gives. -/
theorem Snapshot.ofRaw_eq (config : Config) (index : Nat) (s : RawSnapshot) :
    Snapshot.ofRaw config index s = do s.check config index; return s.view config := by
  have takes : CounterReader.Takes s (CounterReader.takeAll config index) _ _ _ :=
    CounterReader.takes_takeAll
  obtain ⟨rest, taken, -⟩ := takes s.components fun _ _ => rfl
  unfold Snapshot.ofRaw
  rw [StateT.run'_eq, taken]
  cases s.check config index <;> rfl

end IntervalStats
