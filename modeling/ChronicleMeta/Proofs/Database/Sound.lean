import ChronicleMeta.Proofs.Cache.Backing
import ChronicleMeta.Proofs.Cache.Names
import ChronicleMeta.Proofs.Chain
import ChronicleMeta.Proofs.Database.Request
import ChronicleMeta.Proofs.Store.Sound

/-!
What a database keeps: everything that is cached is what the store holds at the moment. A change
that could make it untrue empties the cache, and the others add objects or drop the chronicle that
they delete.
-/

namespace ChronicleMeta

/-- The property is stored under its name and has the identity. -/
def Store.Holds (s : Store) (k : Identity) (p : Property) : Prop :=
  p.surrogate.identity? = some k ∧ s.properties.get? p.name = some p

namespace Database

/-- The stored schema of the identity resolves to the one given. -/
def Resolves (db : Database) (k : Identity) (s : Schema) : Prop :=
  ∃ b, db.store.loadSchema (.ofIdentity k) = some b ∧
    b.resolve db.store.source db.resolution = .ok s

/-- The chronicle is the stored one of the identity, with a schema of the surrogate stored. -/
def Current (db : Database) (k : Identity) (c : Chronicle) : Prop :=
  ∃ stored, db.store.chronicles.get? c.fullName = some stored ∧
    stored.surrogate.identity? = some k ∧ stored.schema = c.schema.schema.surrogate ∧
    c = .ofFullName db.naming stored.surrogate stored.fullName stored.description stored.parent
      c.schema

/-- A database of which each cached chronicle is the stored one, and each shared schema and property is
what is told of its identity. -/
structure Coherent (A : Identity → Schema → Prop) (B : Identity → Property → Prop) (db : Database) :
    Prop where
  unique : db.cache.chronicles.Unique
  backed : Cache.Backed A B db.cache db.cache.users
  current : ∀ k c, db.cache.chronicles.get? k = some c → db.Current k c
  names : db.cache.Named

/-- A database of which everything that is cached is what the store holds. -/
structure Sound (db : Database) : Prop where
  store : db.store.Sound
  granted : db.granted = .all
  unique : db.cache.chronicles.Unique
  backed : Cache.Backed db.Resolves db.store.Holds db.cache db.cache.users
  current : ∀ k c, db.cache.chronicles.get? k = some c → db.Current k c
  names : db.cache.Named

variable {A A' : Identity → Schema → Prop} {B B' : Identity → Property → Prop} {db : Database}
  {k : Identity} {c : Chronicle}

theorem Sound.coherent (h : Sound db) : db.Coherent db.Resolves db.store.Holds :=
  ⟨h.unique, h.backed, h.current, h.names⟩

theorem Coherent.sound (h : db.Coherent db.Resolves db.store.Holds) (hstore : db.store.Sound)
    (hgranted : db.granted = .all) : Sound db :=
  ⟨hstore, hgranted, h.unique, h.backed, h.current, h.names⟩

/-- A database with nothing cached. -/
theorem coherent_of_empty (hchronicles : db.cache.chronicles = []) (hnames : db.cache.names = ∅)
    (hschemas : db.cache.schemas = ∅) (hproperties : db.cache.properties = ∅) :
    db.Coherent A B where
  unique := hchronicles ▸ Recency.unique_nil
  backed := by
    rw [Cache.users, hchronicles]
    exact Cache.backed_nil hschemas hproperties
  current k c hc := by
    rw [hchronicles] at hc
    cases hc
  names := Cache.named_of_names_eq hnames

/-- A store with more objects, in which no less can be told of an identity. -/
theorem Coherent.grown (h : db.Coherent A B) {s : Store}
    (hchronicles : ∀ n c, db.store.chronicles.get? n = some c → s.chronicles.get? n = some c)
    (hA : ∀ k t, A k t → A' k t) (hB : ∀ k p, B k p → B' k p) :
    (db.withStore s).Coherent A' B' where
  unique := h.unique
  backed := ⟨h.backed.tallied, fun k e he => hA k _ (h.backed.schemas k e he),
    fun k e he => hB k _ (h.backed.properties k e he)⟩
  current k c hc := by
    obtain ⟨stored, hget, hrest⟩ := h.current k c hc
    exact ⟨stored, hchronicles _ _ hget, hrest⟩
  names := h.names

/-- The order of the cached chronicles and what the cache has done do not matter. -/
theorem Coherent.reordered (h : db.Coherent A B) {chronicles : Recency Identity Chronicle}
    (hp : db.cache.chronicles.Perm chronicles) (stats : CacheStats) :
    (db.withCache { db.cache with chronicles, stats }).Coherent A B where
  unique := h.unique.perm hp
  backed := Cache.account_backed.frame (c := db.cache) rfl rfl rfl
    (Cache.account_backed.perm (hp.map (·.2.schema)) h.backed)
  current k c hc := by
    have hc : chronicles.get? k = some c := hc
    rw [Recency.get?_perm h.unique hp] at hc
    exact h.current k c hc
  names := h.names.of_perm h.unique hp rfl

theorem Coherent.lookUp (h : db.Coherent A B) (s : Surrogate) :
    (db.withCache (db.cache.lookUp s).2).Coherent A B := by
  obtain ⟨chronicles, stats, hlookUp, hp⟩ := Cache.lookUp_state h.unique s
  rw [hlookUp]
  exact h.reordered hp stats

theorem Coherent.lookUpName (h : db.Coherent A B) (n : String) :
    (db.withCache (db.cache.lookUpName n).2).Coherent A B := by
  obtain ⟨chronicles, stats, hlookUp, hp⟩ := Cache.lookUpName_state h.unique n
  rw [hlookUp]
  exact h.reordered hp stats

/-- A chronicle that is current can be placed in the cache. -/
theorem Coherent.placed (h : db.Coherent A B) (hc : db.Current k c) {cache : Cache}
    (hbacked : Cache.Backed A B cache cache.users)
    (hchron : cache.chronicles = (db.cache.chronicles.push db.cache.capacity k c).2)
    (hnames : cache.names = (db.cache.namesWithout
      (db.cache.chronicles.push db.cache.capacity k c).1).insert c.fullName k) :
    (db.withCache cache).Coherent A B where
  unique := by
    rw [withCache, hchron]
    exact Recency.unique_push h.unique _ _ _
  backed := hbacked
  current i x hx := by
    rw [withCache, hchron] at hx
    rcases Recency.get?_of_push h.unique hx with ⟨rfl, rfl⟩ | hx
    · exact hc
    · exact h.current i x hx
  names := h.names.place h.unique hchron hnames

/-- A chronicle can be dropped from the cache. -/
theorem Coherent.clearChronicle (h : db.Coherent A B) (s : Surrogate) :
    ∃ b cache, db.cache.clearChronicle s = .ok cache b ∧ (db.withCache cache).Coherent A B ∧
      ∀ k, s.identity? = some k → cache.chronicles.get? k = none := by
  obtain ⟨b, cache, hclear, hbacked, -, -, -, ⟨-, rfl, hnone⟩ | ⟨k, c, -, hk, hc, hchron, hnames⟩⟩ :=
    Cache.account_backed.clearChronicle h.unique h.backed s
  · exact ⟨b, db.cache, hclear, h, hnone⟩
  · refine ⟨b, cache, hclear, ⟨?_, hbacked, fun j x hx => ?_, h.names.drop hc hchron hnames⟩,
      fun j hj => ?_⟩
    · rw [withCache, hchron]
      exact h.unique.erase k
    · rw [withCache, hchron, Recency.get?_erase] at hx
      split_ifs at hx
      exact h.current j x hx
    · obtain rfl : k = j := Option.some.inj (hk.symm.trans hj)
      rw [hchron, Recency.get?_erase_self]

/-- A stored chronicle that is not cached can be deleted. -/
theorem Coherent.deleted (h : db.Coherent A B) {n : String} {stored : StoredChronicle}
    (hstored : db.store.chronicles.get? n = some stored)
    (hcache : ∀ k, stored.surrogate.identity? = some k → db.cache.chronicles.get? k = none) :
    (db.withStore { db.store with chronicles := db.store.chronicles.erase n }).Coherent A B := by
  refine ⟨h.unique, h.backed, fun k c hc => ?_, h.names⟩
  obtain ⟨stored', hget, hid, hrest⟩ := h.current k c hc
  have hne : c.fullName ≠ n := by
    intro heq
    rw [heq, hstored] at hget
    obtain rfl := Option.some.inj hget
    cases (hcache k hid).symm.trans hc
  refine ⟨stored', ?_, hid, hrest⟩
  rw [withStore, SortedMap.get?_erase, if_neg hne, hget]

theorem sound_fresh {database : DatabaseId} (hd : database.isBuiltin = false) (capacity : Nat)
    (h : 0 < capacity) (naming : Naming) (resolution : ResolutionConfig) :
    Sound (fresh database capacity h naming resolution) :=
  (coherent_of_empty rfl rfl rfl rfl).sound (Store.sound_empty hd) rfl

/-- A schema is told by its identity. -/
theorem Resolves.unique {s t : Schema} (hs : db.Resolves k s) (ht : db.Resolves k t) : s = t := by
  obtain ⟨b, hb, hs⟩ := hs
  obtain ⟨b', hb', ht⟩ := ht
  obtain rfl : b = b' := Option.some.inj (hb.symm.trans hb')
  exact Except.ok.inj (hs.symm.trans ht)

/-- A schema resolves as before in a store with more schemas. -/
theorem Resolves.grown {s : Store} {t : Schema} (ht : db.Resolves k t)
    (hold : Registered db.store.database .schema db.store.lastId Blueprint.name Blueprint.surrogate
      db.store.schemas)
    (hnew : Registered s.database .schema s.lastId Blueprint.name Blueprint.surrogate s.schemas)
    (hgrows : ∀ n b, db.store.schemas.get? n = some b → s.schemas.get? n = some b) :
    (db.withStore s).Resolves k t := by
  obtain ⟨b, hb, hresolve⟩ := ht
  obtain ⟨hget, hagrees⟩ := hold.findValue?_eq_some_iff.1 hb
  have hsource : ∀ n b, db.store.source n = .ok (some b) → s.source n = .ok (some b) :=
    fun n b hb => congrArg Except.ok (hgrows n b (Except.ok.inj hb))
  exact ⟨b, hnew.findValue?_eq_some_iff.2 ⟨hgrows _ _ hget, hagrees⟩,
    Blueprint.resolve_mono hsource hresolve⟩

/-- The database with nothing cached any more and a store that has been changed. -/
theorem Sound.cleared (h : Sound db) {s : Store} (hs : s.Sound) :
    Sound (db.clearCache.withStore s) :=
  (coherent_of_empty rfl rfl rfl rfl).sound hs h.granted

theorem Sound.grown (h : Sound db) {s : Store} (hs : s.Sound) (hgrows : db.store.Grows s) :
    Sound (db.withStore s) := by
  refine (h.coherent.grown hgrows.chronicles (fun k t ht => ?_) fun k p hp => ?_).sound hs h.granted
  · exact ht.grown h.store.schemas hs.schemas hgrows.schemas
  · exact ⟨hp.1, hgrows.properties _ _ hp.2⟩

end Database

end ChronicleMeta
