import ChronicleMeta.Catalog.Loading
import ChronicleMeta.Proofs.Catalog.Definition
import ChronicleMeta.Proofs.Database.Reading
import ChronicleMeta.Proofs.Store.Depth

/-!
How a schema of a catalog is loaded. If its base is stored and there is room for it, the schema is
stored under the next id, with its base and its definitions, in one session or in two.
-/

namespace ChronicleMeta

open Blueprint

namespace Database

variable {db : Database} {b old : Blueprint} {chain : List Blueprint}

/-- With permission and a chain that can be followed, saving is up to the store. -/
theorem updateSchema_of_chain
    (hpermitted : db.granted (if b.surrogate.isPending then .create else .modify) b.surrogate)
    (hediting : b.editing = true)
    (hchain : b.chain db.store.source ({} : ResolutionConfig).maxDepth = .ok chain) :
    db.updateSchema b =
      if b.surrogate.isPending then
        (db.onStore (·.createSchema b)).andThen fun id db =>
          db.whenOk (Failure.ofError (b.upgrade id)) fun b => .ok db b.close
      else (db.clearCache.onStore (·.updateSchema b)).andThen fun () db => .ok db b.close := by
  have hensure : b.ensureEditing = .ok () := by simp [ensureEditing, hediting]
  have hcheck : db.check (if b.surrogate.isPending then .create else .modify) b.surrogate = .ok () := by
    simp [check, Permissions.check, hpermitted]
  simp only [updateSchema, save, hcheck, hensure, hchain, ok_bind]
  rfl

/-- A new schema is stored under the next id. -/
theorem updateSchema_new (hpermitted : db.granted .create b.surrogate) (hediting : b.editing = true)
    (hchain : b.chain db.store.source ({} : ResolutionConfig).maxDepth = .ok chain)
    (hpending : b.surrogate = .pending db.store.database .schema)
    (hfree : db.store.schemas.get? b.name = none) (hroom : db.store.lastId.toNat + 1 < 2 ^ 64) :
    let stored := Blueprint.close
      { b with surrogate := .committed db.store.database .schema db.store.nextId }
    db.updateSchema b = .ok (db.withStore { db.store with
      lastId := db.store.nextId, schemas := db.store.schemas.insert b.name stored }) stored := by
  have hnew : b.surrogate.isPending = true := by rw [hpending]; rfl
  have hcreate := Store.createSchema_eq_ok hpending hfree hroom
  have hup := Store.upgrade_eq_ok hpending hroom
  rw [updateSchema_of_chain (by rwa [hnew]) hediting hchain, hnew, if_pos rfl, onStore, hcreate]
  simp only [Outcome.ok, Outcome.mapError, Outcome.inState, Outcome.andThen, Except.mapError, whenOk,
    Failure.ofError, hup]

/-- A stored schema is replaced, after the cache has been emptied. -/
theorem updateSchema_again (hpermitted : db.granted .modify b.surrogate) (hediting : b.editing = true)
    (hchain : b.chain db.store.source ({} : ResolutionConfig).maxDepth = .ok chain)
    (hcommitted : b.surrogate.isPending = false)
    (hold : db.store.loadSchema b.surrogate = some old) (hname : old.name = b.name) :
    db.updateSchema b = .ok (db.clearCache.withStore { db.store with
      schemas := db.store.schemas.insert b.name b.close }) b.close := by
  have hupdate := Store.updateSchema_eq_ok hold hname
  rw [updateSchema_of_chain (by rwa [hcommitted]) hediting hchain, hcommitted, if_neg (by simp), onStore]
  simp only [clearCache, hupdate, Outcome.ok, Outcome.mapError, Outcome.inState, Outcome.andThen,
    Except.mapError]

end Database

namespace SchemaEntry

variable {entries : List SchemaEntry} {entry : SchemaEntry} {db : Database} {d : Definitions} {k : Nat}

/-- The schema of the entry with the definitions, as it is stored under the id. -/
def stored (entry : SchemaEntry) (database : DatabaseId) (id : UInt64) (d : Definitions) :
    Blueprint where
  surrogate := .committed database .schema id
  name := entry.name
  base := entry.base
  definitions := d.consolidate
  editing := false

def put (entry : SchemaEntry) (db : Database) (d : Definitions) : Database :=
  db.withStore { db.store with
    lastId := db.store.nextId
    schemas := db.store.schemas.insert entry.name
      (entry.stored db.store.database db.store.nextId d) }

/-- The definitions of the entry can be made, and are `d`. -/
def Builds (entry : SchemaEntry) (db : Database) (d : Definitions) : Prop :=
  ∃ b, entry.addDefinitions db (db.newSchema entry.name) = .ok b ∧ b.definitions = d

theorem Builds.congr {db' : Database} (h : entry.Builds db d)
    (hdatabase : db'.store.database = db.store.database)
    (hproperty : ∀ n, db'.property n = db.property n) : entry.Builds db' d := by
  obtain ⟨b, hb, hd⟩ := h
  refine ⟨b, ?_, hd⟩
  rw [addDefinitions_congr hproperty, Database.newSchema, hdatabase]
  exact hb

/-- The entry has the definitions `d`, and nothing keeps it from being loaded: its base is stored, and
is the first of so many schemas up to one without base. -/
structure Loadable (db : Database) (entry : SchemaEntry) (d : Definitions) (k : Nat) : Prop where
  create : db.granted .create (.pending db.store.database .schema)
  modify : db.granted .modify (.committed db.store.database .schema db.store.nextId)
  schemas : Registered db.store.database .schema db.store.lastId Blueprint.name Blueprint.surrogate
    db.store.schemas
  room : db.store.lastId.toNat + 1 < 2 ^ 64
  free : db.store.schemas.get? entry.name = none
  height : db.store.Height entry.base k
  short : k < ({} : ResolutionConfig).maxDepth
  builds : entry.Builds db d

theorem Loadable.addDefinitions_eq (h : entry.Loadable db d k) {b : Blueprint} (hb : b.Defines)
    (hempty : b.definitions = {}) :
    ∃ changes, entry.addDefinitions db b = .ok { b with definitions := d, changes } := by
  obtain ⟨c, hc, rfl⟩ := h.builds
  have hnew : (db.newSchema entry.name).Defines := ⟨rfl, rfl⟩
  obtain ⟨changes, hadd, -⟩ := transfers_addDefinitions db entry hnew hb hempty hc
  exact ⟨changes, hadd⟩

/-- A name that is not stored leads to no chain. -/
theorem Loadable.not_height (h : entry.Loadable db d k) (j : Nat) :
    ¬db.store.Height (some entry.name) j := by
  intro hj
  cases hj with
  | next hb => cases h.free.symm.trans hb

/-- A new session of the schema, with its base and whatever definitions, is saved under the next id. -/
theorem Loadable.updateSchema_eq (h : entry.Loadable db d k) (d' : Definitions) (changes : Changes) :
    let b : Blueprint := { db.newSchema entry.name with base := entry.base, definitions := d', changes }
    ∃ b', db.updateSchema b = .ok (entry.put db d') b' := by
  intro b
  obtain ⟨chain, hchain, -⟩ := Store.Height.exists_chain (b := b) h.height h.short
    fun j hj => absurd hj (h.not_height j)
  exact ⟨_, Database.updateSchema_new h.create rfl hchain rfl h.free h.room⟩

theorem Loadable.load_root (h : entry.Loadable db d k) (hbase : entry.base = none) :
    entry.load db = .ok (entry.put db d) () := by
  obtain ⟨changes, hadd⟩ := h.addDefinitions_eq (b := db.newSchema entry.name) ⟨rfl, rfl⟩ rfl
  obtain ⟨b', hsave⟩ := h.updateSchema_eq d changes
  calc entry.load db
    _ = .ofOutcome (db.updateSchema
          { db.newSchema entry.name with base := entry.base, definitions := d, changes }) := by
        simp only [load, hbase, fill, hadd]
        rfl
    _ = .ok (entry.put db d) () := by
        rw [hsave]
        rfl

/-- The schema of an entry with a base is stored without definitions first. -/
theorem Loadable.base_saved (h : entry.Loadable db d k) {base : String} (hbase : entry.base = some base) :
    Loaded.ofOutcome (db.whenOk (Failure.ofError ((db.newSchema entry.name).setBase (some base)))
      db.updateSchema) = .ok (entry.put db {}) () := by
  have hother : base ≠ entry.name := by
    rintro rfl
    exact h.not_height k (hbase ▸ h.height)
  obtain ⟨b', hsave⟩ := h.updateSchema_eq {} { base := true }
  have hset : (db.newSchema entry.name).setBase (some base) =
      .ok { db.newSchema entry.name with base := entry.base, changes := { base := true } } := by
    simp [setBase, ensureEditing, Database.newSchema, hbase, hother, pure, Except.pure]
  rw [hset, Failure.ofError, Except.mapError, Database.whenOk]
  exact (congrArg Loaded.ofOutcome hsave).trans rfl

theorem get?_put (entry : SchemaEntry) (db : Database) (d : Definitions) :
    (entry.put db d).store.schemas.get? entry.name =
      some (entry.stored db.store.database db.store.nextId d) := SortedMap.get?_insert_self _ _ _

theorem get?_put_of_ne (db : Database) (d : Definitions) {n : String} (hn : n ≠ entry.name) :
    (entry.put db d).store.schemas.get? n = db.store.schemas.get? n :=
  SortedMap.get?_insert_of_ne _ hn _

theorem Loadable.get?_put_of_get? (h : entry.Loadable db d k) (d' : Definitions) {n : String}
    {b : Blueprint} (hb : db.store.schemas.get? n = some b) :
    (entry.put db d').store.schemas.get? n = some b := SortedMap.get?_insert_of_free _ h.free hb

theorem Loadable.registered_put (h : entry.Loadable db d k) (d' : Definitions) :
    Registered db.store.database .schema db.store.nextId Blueprint.name Blueprint.surrogate
      (entry.put db d').store.schemas := by
  have hnext := Store.toNat_nextId h.room
  exact h.schemas.insert_new (a := entry.stored db.store.database db.store.nextId d') rfl (by omega)

theorem Loadable.height_put (h : entry.Loadable db d k) (d' : Definitions) {next : Option String}
    {j : Nat} (hj : db.store.Height next j) : (entry.put db d').store.Height next j :=
  hj.mono fun _ b hb => ⟨b, h.get?_put_of_get? d' hb, rfl⟩

theorem Loadable.height_self (h : entry.Loadable db d k) (d' : Definitions) :
    (entry.put db d').store.Height (some entry.name) (k + 1) :=
  .next (entry.get?_put db d') (h.height_put d' h.height)

/-- The stored schema can be changed in a second session. -/
theorem Loadable.editSchema_put (h : entry.Loadable db d k) (d' : Definitions) :
    (entry.put db d').editSchema entry.name =
      .ok (entry.stored db.store.database db.store.nextId d').edit := by
  have hloaded : (entry.put db d').loadSchema entry.name =
      .ok (entry.stored db.store.database db.store.nextId d') := by
    simp only [Database.loadSchema, Store.schema?, get?_put]
  have hmodify : (entry.put db d').check .modify
      (entry.stored db.store.database db.store.nextId d').surrogate = .ok () := by
    simp [Database.check, Permissions.check, put, Database.withStore, stored, h.modify]
  rw [Database.editSchema, hloaded, ok_bind, hmodify]
  rfl

/-- The definitions are added in the second session. -/
theorem Loadable.fill_put (h : entry.Loadable db d k) :
    entry.fill (entry.stored db.store.database db.store.nextId {}).edit (entry.put db {}) =
      .ok (entry.put db d).clearCache () := by
  let first := entry.stored db.store.database db.store.nextId {}
  have hsame : ∀ n, (entry.put db {}).property n = db.property n := fun _ => rfl
  obtain ⟨changes, hadd⟩ := h.addDefinitions_eq (b := first.edit) ⟨rfl, rfl⟩ rfl
  rw [← addDefinitions_congr hsame] at hadd
  let b : Blueprint := { first.edit with definitions := d, changes }
  obtain ⟨chain, hchain, -⟩ : ∃ chain, b.chain (entry.put db {}).store.source 64 = .ok chain ∧ _ :=
    (h.height_put {} h.height).exists_chain h.short fun j hj => by
      have heq := hj.unique (h.height_self {})
      omega
  have hload : (entry.put db {}).store.loadSchema b.surrogate = some first :=
    (h.registered_put {}).findValue?_eq_some_iff.2
      ⟨entry.get?_put db {}, Surrogate.agrees_iff.2 ⟨rfl, _, rfl⟩⟩
  have hmodify : (entry.put db {}).granted .modify b.surrogate := h.modify
  have hsave := Database.updateSchema_again hmodify rfl hchain rfl hload rfl
  have hreplaced : (entry.put db {}).store.schemas.insert entry.name b.close =
      (entry.put db d).store.schemas := SortedMap.insert_insert _ _ _ _
  calc entry.fill first.edit (entry.put db {})
    _ = .ofOutcome ((entry.put db {}).updateSchema b) := by rw [fill, hadd]
    _ = .ok ((entry.put db {}).clearCache.withStore { (entry.put db {}).store with
          schemas := (entry.put db {}).store.schemas.insert entry.name b.close }) () := by
        rw [hsave]
        rfl
    _ = .ok (entry.put db d).clearCache () := by
        rw [hreplaced]
        rfl

theorem Loadable.definitions_eq_empty (h : entry.Loadable db d k)
    (hnothing : (entry.attributes.isEmpty && entry.series.isEmpty) = true) : d = {} := by
  obtain ⟨b, hb, rfl⟩ := h.builds
  obtain ⟨hattributes, hseries⟩ : entry.attributes = [] ∧ entry.series = [] := by
    simpa using hnothing
  rw [addDefinitions, hattributes, hseries] at hb
  have hnew : db.newSchema entry.name = b := Except.ok.inj hb
  rw [← hnew]
  rfl

/-- An entry is loaded as what is stored under the next id. The cache may have been emptied. -/
theorem Loadable.load_eq_ok (h : entry.Loadable db d k) :
    ∃ cache, (cache = db.cache ∨ cache = db.cache.clear) ∧
      entry.load db = .ok ((entry.put db d).withCache cache) () := by
  cases hbase : entry.base with
  | none => exact ⟨db.cache, .inl rfl, h.load_root hbase⟩
  | some base =>
    have hsaved := h.base_saved hbase
    by_cases hnothing : entry.attributes.isEmpty && entry.series.isEmpty
    · have hempty := h.definitions_eq_empty hnothing
      subst hempty
      refine ⟨db.cache, .inl rfl, ?_⟩
      simp only [load, hbase, hsaved, Outcome.andThen, Outcome.ok, hnothing, if_true]
      rfl
    · refine ⟨db.cache.clear, .inr rfl, ?_⟩
      simp only [load, hbase, hsaved, Outcome.andThen, Outcome.ok, hnothing, h.editSchema_put, h.fill_put]
      rfl

end SchemaEntry

end ChronicleMeta
