import ChronicleMeta.Proofs.Catalog.Listing
import ChronicleMeta.Proofs.Catalog.Loading
import ChronicleMeta.Proofs.Database.Chronicles

/-!
What a catalog that has been loaded has left: each listed schema is stored with its base and with the
definitions that it lists.
-/

namespace ChronicleMeta

open Blueprint

namespace Database

variable {db : Database} {b b' old : Blueprint}

/-- A new schema that has been saved is stored under the next id and a name that was free. -/
theorem state_of_updateSchema_new (hpending : b.surrogate.isPending = true)
    (h : (db.updateSchema b).result = .ok b') :
    db.store.schemas.get? b.name = none ∧ db.store.lastId.toNat < db.store.nextId.toNat ∧
      (db.updateSchema b).state = db.withStore { db.store with
        lastId := db.store.nextId
        schemas := db.store.schemas.insert b.name
          (close { b with surrogate := .committed db.store.database .schema db.store.nextId }) } := by
  obtain ⟨e, hs⟩ | ⟨chain, -, hs⟩ := updateSchema_saves db b
  · rw [hs] at h
    cases h
  · rw [hs, hpending, if_pos rfl] at h ⊢
    obtain ⟨e, hstore⟩ | ⟨hfree, hlt, hstore⟩ := Store.createSchema_cases db.store b
    · simp only [onStore, hstore] at h
      cases h
    · refine ⟨hfree, hlt, ?_⟩
      simp only [onStore, hstore]
      exact holds_whenOk (I := (· = _)) rfl fun _ => rfl

/-- A stored schema that has been saved is replaced. -/
theorem state_of_updateSchema_again (hcommitted : b.surrogate.isPending = false)
    (hold : db.store.loadSchema b.surrogate = some old) (hname : old.name = b.name)
    (h : (db.updateSchema b).result = .ok b') :
    (db.updateSchema b).state = db.clearCache.withStore { db.store with
      schemas := db.store.schemas.insert b.name b.close } := by
  obtain ⟨e, hs⟩ | ⟨chain, -, hs⟩ := updateSchema_saves db b
  · rw [hs] at h
    cases h
  · have hstore := Store.updateSchema_eq_ok hold hname
    rw [hs, hcommitted, if_neg (by simp), onStore]
    simp only [clearCache, hstore]
    rfl

/-- The creation of a chronicle changes no schemas and no properties. -/
theorem store_createChronicle (db : Database) (fullName : String) (description : Option String)
    (schemaName : String) : ∃ lastId chronicles,
      (db.createChronicle fullName description schemaName).state.store =
        { db.store with lastId, chronicles } := by
  obtain hs | ⟨r, hasks, hs⟩ := store_serve db (.createChronicle fullName description schemaName)
  · exact ⟨_, _, hs⟩
  · cases hasks with
    | @createChronicle _ _ _ stored _ =>
      obtain ⟨e, hstore⟩ | ⟨-, -, hstore⟩ := Store.createChronicle_cases db.store stored
      · exact ⟨_, _, hs.trans (congrArg Outcome.state hstore)⟩
      · exact ⟨_, _, hs.trans (congrArg Outcome.state hstore)⟩

end Database

namespace SchemaEntry

variable {entry : SchemaEntry} {db db' : Database} {b : Blueprint}

/-- A session that is filled from the definitions of the entry has got them, and has been saved. -/
theorem fill_eq_ok (hb : b.Defines) (hempty : b.definitions = {})
    (h : (entry.fill b db).result = .ok ()) :
    ∃ d changes b', entry.Builds db d ∧
      (db.updateSchema { b with definitions := d, changes }).result = .ok b' ∧
      (entry.fill b db).state = (db.updateSchema { b with definitions := d, changes }).state := by
  unfold fill at h ⊢
  cases hadd : entry.addDefinitions db b with
  | error p =>
    rw [hadd] at h
    cases h
  | ok b₁ =>
    rw [hadd] at h
    obtain ⟨changes, hself, -⟩ := transfers_addDefinitions db entry hb hb rfl hadd
    have hb₁ := Except.ok.inj (hadd.symm.trans hself)
    obtain ⟨_, hnew, -⟩ := transfers_addDefinitions db entry (c := db.newSchema entry.name) hb
      ⟨rfl, rfl⟩ hempty.symm hadd
    obtain ⟨b', hb', -⟩ := map_eq_ok_iff.1 h
    exact ⟨_, changes, b', ⟨_, hnew, rfl⟩, by rw [← hb₁]; exact mapError_eq_ok_iff.1 hb',
      by rw [← hb₁]; rfl⟩

theorem load_root_eq_ok (hbase : entry.base = none) (h : (entry.load db).result = .ok ()) :
    ∃ d, entry.Builds db d ∧ db.store.schemas.get? entry.name = none ∧
      db.store.lastId.toNat < db.store.nextId.toNat ∧ (entry.load db).state = entry.put db d := by
  simp only [load, hbase] at h ⊢
  obtain ⟨d, changes, b', hd, hsave, hstate⟩ := fill_eq_ok ⟨rfl, rfl⟩ rfl h
  obtain ⟨hfree, hlt, hsaved⟩ := Database.state_of_updateSchema_new rfl hsave
  refine ⟨d, hd, hfree, hlt, ?_⟩
  rw [hstate, hsaved, put, stored, hbase]
  rfl

/-- A schema whose base has been saved is stored without definitions. -/
theorem base_saved_eq_ok {base : String} (hbase : entry.base = some base)
    (h : (db.whenOk (Failure.ofError ((db.newSchema entry.name).setBase (some base)))
      db.updateSchema).result = .ok b) :
    db.store.schemas.get? entry.name = none ∧ db.store.lastId.toNat < db.store.nextId.toNat ∧
      (db.whenOk (Failure.ofError ((db.newSchema entry.name).setBase (some base)))
        db.updateSchema).state = entry.put db {} := by
  cases hset : (db.newSchema entry.name).setBase (some base) with
  | error e =>
    rw [hset] at h
    cases h
  | ok b₁ =>
    have hother : base ≠ entry.name := by
      rintro rfl
      simp [setBase, ensureEditing, Database.newSchema, bind, Except.bind, throw, throwThe,
        MonadExceptOf.throw] at hset
    have hb₁ : b₁ = { db.newSchema entry.name with base := entry.base, changes := { base := true } } := by
      refine Except.ok.inj (hset.symm.trans ?_)
      simp [setBase, ensureEditing, Database.newSchema, hbase, hother, pure, Except.pure]
    rw [hset] at h
    subst hb₁
    exact Database.state_of_updateSchema_new rfl h

/-- A schema that has been filled in a second session is stored with its definitions. -/
theorem fill_put_eq_ok (hregistered : Registered db.store.database .schema db.store.nextId Blueprint.name
      Blueprint.surrogate (entry.put db {}).store.schemas)
    (h : (entry.fill (entry.stored db.store.database db.store.nextId {}).edit (entry.put db {})).result =
      .ok ()) :
    ∃ d, entry.Builds db d ∧
      (entry.fill (entry.stored db.store.database db.store.nextId {}).edit (entry.put db {})).state =
        (entry.put db d).clearCache := by
  obtain ⟨d, changes, b', hd, hsave, hstate⟩ := fill_eq_ok ⟨rfl, rfl⟩ rfl h
  let b : Blueprint :=
    { (entry.stored db.store.database db.store.nextId {}).edit with definitions := d, changes }
  have hold : (entry.put db {}).store.loadSchema b.surrogate =
      some (entry.stored db.store.database db.store.nextId {}) :=
    hregistered.findValue?_eq_some_iff.2 ⟨entry.get?_put db {}, Surrogate.agrees_iff.2 ⟨rfl, _, rfl⟩⟩
  have hsaved := Database.state_of_updateSchema_again rfl hold rfl hsave
  refine ⟨d, hd.congr rfl fun _ => rfl, hstate.trans (hsaved.trans ?_)⟩
  have hreplaced : ∀ b, (entry.put db {}).store.schemas.insert entry.name b =
      db.store.schemas.insert entry.name b := fun b => SortedMap.insert_insert _ _ _ _
  exact congrArg (fun schemas => (entry.put db {}).clearCache.withStore
    { (entry.put db {}).store with schemas }) (hreplaced _)

/-- An entry that has been loaded is stored under the next id and a name that was free. The cache may
have been emptied. -/
theorem load_eq_ok (hregistered : Registered db.store.database .schema db.store.lastId Blueprint.name
    Blueprint.surrogate db.store.schemas) (h : (entry.load db).result = .ok ()) :
    ∃ d cache, entry.Builds db d ∧ db.store.schemas.get? entry.name = none ∧
      db.store.lastId.toNat < db.store.nextId.toNat ∧ (cache = db.cache ∨ cache = db.cache.clear) ∧
      (entry.load db).state = (entry.put db d).withCache cache := by
  cases hbase : entry.base with
  | none =>
    obtain ⟨d, hd, hfree, hlt, hstate⟩ := load_root_eq_ok hbase h
    exact ⟨d, db.cache, hd, hfree, hlt, .inl rfl, hstate⟩
  | some base =>
    simp only [load, hbase] at h ⊢
    obtain ⟨u, hsaved, h⟩ := Outcome.result_andThen_eq_ok h
    obtain ⟨b', hb', -⟩ := map_eq_ok_iff.1 hsaved
    obtain ⟨hfree, hlt, hfirst⟩ := base_saved_eq_ok hbase (mapError_eq_ok_iff.1 hb')
    have hregistered' := hregistered.insert_new
      (a := entry.stored db.store.database db.store.nextId {}) rfl hlt
    have hstate : (Loaded.ofOutcome (db.whenOk
        (Failure.ofError ((db.newSchema entry.name).setBase (some base))) db.updateSchema)).state =
        entry.put db {} := hfirst
    rw [hstate] at h
    simp only [Outcome.andThen, hsaved, hstate]
    by_cases hnothing : entry.attributes.isEmpty && entry.series.isEmpty
    · rw [if_pos hnothing]
      obtain ⟨hattributes, hseries⟩ : entry.attributes = [] ∧ entry.series = [] := by
        simpa using hnothing
      refine ⟨{}, db.cache, ⟨db.newSchema entry.name, ?_, rfl⟩, hfree, hlt, .inl rfl, rfl⟩
      rw [addDefinitions, hattributes, hseries]
      rfl
    · rw [if_neg hnothing] at h ⊢
      cases hedit : (entry.put db {}).editSchema entry.name with
      | error e =>
        rw [hedit] at h
        cases h
      | ok b =>
        rw [hedit] at h
        obtain ⟨b₀, hb₀, hedit⟩ := bind_eq_ok_iff.1 hedit
        obtain ⟨_, -, hedit⟩ := bind_eq_ok_iff.1 hedit
        obtain rfl := pure_eq_ok_iff.1 hedit
        obtain rfl : entry.stored db.store.database db.store.nextId {} = b₀ :=
          Option.some.inj ((entry.get?_put db {}).symm.trans (Database.schema?_of_loadSchema hb₀))
        obtain ⟨d, hd, hfilled⟩ := fill_put_eq_ok hregistered' h
        exact ⟨d, db.cache.clear, hd, hfree, hlt, .inr rfl, hfilled⟩

/-- What has become of the database `start` while schemas have been added to it. -/
structure Gains (start db : Database) : Prop where
  frame : ∃ lastId schemas cache,
    db = (start.withStore { start.store with lastId, schemas }).withCache cache
  cachesStored : db.CachesStored
  registered : Registered db.store.database .schema db.store.lastId Blueprint.name Blueprint.surrogate
    db.store.schemas

/-- The schema of the entry is stored with its base and its definitions. -/
def IsStored (entry : SchemaEntry) (start db : Database) : Prop :=
  ∃ id d, entry.Builds start d ∧
    db.store.schemas.get? entry.name = some (entry.stored start.store.database id d)

variable {start : Database} {entries : List SchemaEntry} {e : SchemaEntry}

theorem gains_refl (hcache : db.CachesStored) (hregistered : Registered db.store.database .schema
    db.store.lastId Blueprint.name Blueprint.surrogate db.store.schemas) : Gains db db :=
  ⟨⟨_, _, _, rfl⟩, hcache, hregistered⟩

theorem Gains.property_eq (h : Gains start db) (hstart : start.CachesStored) (n : String) :
    start.property n = db.property n := by
  rw [hstart.property_eq, h.cachesStored.property_eq]
  obtain ⟨⟨lastId, schemas, cache, rfl⟩, -, -⟩ := h
  rfl

/-- What loading entries has made of a database: their schemas, under names of their own that were free,
have been added to those it had. -/
structure Gained (start : Database) (entries : List SchemaEntry) (db db' : Database) : Prop where
  gains : Gains start db'
  stored : ∀ e ∈ entries, e.IsStored start db'
  kept : ∀ n b, db.store.schemas.get? n = some b → db'.store.schemas.get? n = some b
  distinct : (entries.map (·.name)).Nodup
  free : ∀ e ∈ entries, db.store.schemas.get? e.name = none

theorem Gains.gained (h : Gains start db) : Gained start [] db db :=
  ⟨h, by simp, fun _ _ hb => hb, List.nodup_nil, by simp⟩

theorem Gained.append (h : Gained start entries db db') {entries' : List SchemaEntry} {db'' : Database}
    (h' : Gained start entries' db' db'') : Gained start (entries ++ entries') db db'' where
  gains := h'.gains
  stored e he := by
    rcases List.mem_append.1 he with he | he
    · obtain ⟨id, d, hd, hget⟩ := h.stored e he
      exact ⟨id, d, hd, h'.kept _ _ hget⟩
    · exact h'.stored e he
  kept n b hb := h'.kept n b (h.kept n b hb)
  distinct := by
    rw [List.map_append]
    refine List.nodup_append.2 ⟨h.distinct, h'.distinct, ?_⟩
    rintro n hn m hm rfl
    obtain ⟨e, he, rfl⟩ := List.mem_map.1 hn
    obtain ⟨e', he', hname⟩ := List.mem_map.1 hm
    obtain ⟨id, d, -, hget⟩ := h.stored e he
    cases (hname ▸ h'.free e' he').symm.trans hget
  free e he := by
    rcases List.mem_append.1 he with he | he
    · exact h.free e he
    · rw [Option.eq_none_iff_forall_ne_some]
      intro b hb
      cases (h'.free e he).symm.trans (h.kept _ b hb)

theorem Gained.perm (h : Gained start entries db db') {entries' : List SchemaEntry}
    (hperm : entries.Perm entries') : Gained start entries' db db' where
  gains := h.gains
  stored e he := h.stored e (hperm.mem_iff.2 he)
  kept := h.kept
  distinct := (hperm.map _).nodup_iff.1 h.distinct
  free e he := h.free e (hperm.mem_iff.2 he)

/-- One entry is loaded. -/
theorem Gains.load (h : Gains start db) (hstart : start.CachesStored)
    (hload : (e.load db).result = .ok ()) : Gained start [e] db (e.load db).state := by
  obtain ⟨d, cache, hd, hfree, hlt, hcache, hstate⟩ := load_eq_ok h.registered hload
  have hdatabase : db.store.database = start.store.database := by
    obtain ⟨lastId, schemas, cache, rfl⟩ := h.frame
    rfl
  have hbuilds : e.Builds start d := hd.congr hdatabase.symm (h.property_eq hstart)
  rw [hstate]
  refine ⟨⟨?_, ?_, ?_⟩, ?_, fun n b hb => SortedMap.get?_insert_of_free _ hfree hb,
    List.nodup_singleton _, by simpa using hfree⟩
  · obtain ⟨lastId, schemas, cache₀, rfl⟩ := h.frame
    exact ⟨_, _, cache, rfl⟩
  · rcases hcache with rfl | rfl
    · exact h.cachesStored
    · exact Database.cachesStored_of_uncached rfl
  · exact h.registered.insert_new (a := e.stored db.store.database db.store.nextId d) rfl hlt
  · refine List.forall_mem_singleton.2 ⟨db.store.nextId, d, hbuilds, ?_⟩
    rw [← hdatabase]
    exact get?_put e db d

/-- Entries are loaded one after another. -/
theorem Gains.each (h : Gains start db) (hstart : start.CachesStored)
    {load : SchemaEntry → Database → Loaded}
    (hload : ∀ e db, (load e db).result = .ok () →
      (e.load db).result = .ok () ∧ (load e db).state = (e.load db).state)
    (heach : (Loaded.each load entries db).result = .ok ()) :
    Gained start entries db (Loaded.each load entries db).state := by
  induction entries generalizing db with
  | nil => exact h.gained
  | cons e entries ih =>
    rw [Loaded.each] at heach ⊢
    obtain ⟨u, hfirst, hrest⟩ := Outcome.result_andThen_eq_ok heach
    obtain ⟨hresult, hstate⟩ := hload e db hfirst
    have hgained := h.load hstart hresult
    rw [← hstate] at hgained
    simp only [Outcome.andThen, hfirst]
    exact hgained.append (ih hgained.gains hrest)

theorem Gains.loadSchemas (h : Gains start db) (hstart : start.CachesStored)
    (hload : (ChronicleMeta.loadSchemas entries db).result = .ok ()) :
    Gained start entries db (ChronicleMeta.loadSchemas entries db).state := by
  induction hlength : entries.length using Nat.strong_induction_on generalizing entries db with
  | _ length ih =>
    rw [ChronicleMeta.loadSchemas] at hload ⊢
    dsimp only at hload ⊢
    by_cases hempty : entries.isEmpty
    · obtain rfl := List.isEmpty_iff.1 hempty
      exact h.gained
    rw [if_neg hempty] at hload ⊢
    by_cases hless : (waiting db entries).length < entries.length
    · rw [if_pos hless] at hload ⊢
      obtain ⟨u, hround, hrest⟩ := Outcome.result_andThen_eq_ok hload
      simp only [Outcome.andThen, hround]
      have hgained := h.each hstart (by exact fun e db he => ⟨mapError_eq_ok_iff.1 he, rfl⟩) hround
      have hwaiting := ih _ (hlength ▸ hless) hgained.gains hrest rfl
      exact (hgained.append hwaiting).perm (List.filter_append_perm (·.isReady db) entries)
    · rw [if_neg hless] at hload
      cases hload

end SchemaEntry

open SchemaEntry

/-- Where the loading of a catalog comes to the schemas, there are still none, and what is cached is still
what is stored. -/
theorem cachesStored_of_loaded {db : Database} (hschemas : db.store.schemas = ∅)
    (hcache : db.CachesStored) (valueTypes : List ValueTypeEntry) (properties : List PropertyEntry) :
    let db' := ((Loaded.each ValueTypeEntry.load valueTypes db).andThen fun () =>
      Loaded.each PropertyEntry.load properties).state
    db'.store.schemas = ∅ ∧ db'.CachesStored := by
  refine holds_prepared (I := fun db => db.store.schemas = ∅ ∧ db.CachesStored) ?_ ?_
    ⟨hschemas, hcache⟩ valueTypes properties
  · intro db t ⟨hschemas, hcache⟩
    exact ⟨(Store.schemas_createValueType db.store t).trans hschemas,
      hcache.grown (Store.grows_createValueType db.store t)⟩
  · intro db p ⟨hschemas, hcache⟩
    have hcreated : (db.onStore (·.createProperty p)).state.CachesStored :=
      hcache.grown (Store.grows_createProperty db.store p)
    refine ⟨(Database.schemas_createProperty db p).trans hschemas, ?_⟩
    exact Database.holds_whenOk hcache fun _ =>
      Database.holds_andThen hcreated fun _ => Database.holds_whenOk hcreated fun _ => hcreated

/-- A series that is not a removal has one definition for each of its attributes exactly if no removal is
listed after another attribute of its number. -/
theorem SeriesEntry.Defines.oneOfEach_iff {property : String → Except Error Property} {x : SeriesEntry}
    {y : Series} (h : x.Defines property y) :
    OneOfEach AttributeEntry.number (AttributeEntry.Describes property) x.attributes y.custom? ↔
      x.attributes.Pairwise fun a a' => a.number = a'.number → a'.erasing = false := by
  constructor
  · intro hone
    exact (List.pairwise_map.1 hone.distinct).imp fun hne hsame => absurd hsame hne
  · intro hnone
    refine h.attributes.oneOfEach (List.pairwise_map.2 ?_)
    refine (h.repeated.and hnone).imp fun ⟨hremoval, hnot⟩ hsame => ?_
    cases (hremoval hsame).symm.trans (hnot hsame)

/-- The chronicles of a catalog change no schemas and no properties. -/
theorem tables_of_loadChronicles (chronicles : List ChronicleEntry) (db : Database) :
    let db' := (Loaded.each ChronicleEntry.load chronicles db).state
    db'.store.schemas = db.store.schemas ∧ db'.store.properties = db.store.properties := by
  refine holds_each (I := fun db' =>
    db'.store.schemas = db.store.schemas ∧ db'.store.properties = db.store.properties) ?_ chronicles
    ⟨rfl, rfl⟩
  intro entry db' h
  obtain ⟨lastId, stored, hs⟩ :=
    Database.store_createChronicle db' entry.name entry.description entry.schema
  have hstore : (entry.load db').state.store = { db'.store with lastId, chronicles := stored } := hs
  rw [hstore]
  exact h

/-- A catalog that has been loaded has added its schemas to a database without schemas, and what comes
after them changes neither these nor the properties. -/
private theorem gained_of_load {db : Database} {catalog : Catalog} (hschemas : db.store.schemas = ∅)
    (hcache : db.CachesStored) (h : (catalog.load db).result = .ok ()) :
    ∃ start db', start.CachesStored ∧ Gained start catalog.schemas start db' ∧
      (catalog.load db).state.store.schemas = db'.store.schemas ∧
      (catalog.load db).state.store.properties = db'.store.properties := by
  unfold Catalog.load at h
  obtain ⟨_, hfirst, -⟩ := Outcome.result_andThen_eq_ok h
  obtain ⟨_, hprepared, hloaded⟩ := Outcome.result_andThen_eq_ok hfirst
  obtain ⟨hnone, hcached⟩ :=
    cachesStored_of_loaded hschemas hcache catalog.valueTypes catalog.properties
  have hstate : (catalog.load db).state = (Loaded.each ChronicleEntry.load catalog.chronicles
      (loadSchemas catalog.schemas ((Loaded.each ValueTypeEntry.load catalog.valueTypes db).andThen
        fun () => Loaded.each PropertyEntry.load catalog.properties).state).state).state := by
    rw [Catalog.load, Outcome.andThen, hfirst, Outcome.andThen, hprepared]
  rw [hstate]
  have hgains := gains_refl hcached (hnone ▸ registered_empty)
  exact ⟨_, _, hcached, hgains.loadSchemas hcached hloaded, tables_of_loadChronicles _ _⟩

/-- A catalog that is loaded into a database without schemas loses none of its schemas. Each is stored
with its base, with one attribute for each that it lists and with one series for each that it lists, as
they are listed; no number is listed twice. In a series that is not a removal, a number is listed again
only by a removal, which takes the place of what is listed before it. Exactly where there is no such
removal, the series has one attribute for each that it lists. -/
theorem Catalog.load_complete {db : Database} {catalog : Catalog} (hschemas : db.store.schemas = ∅)
    (hcache : db.CachesStored) (h : (catalog.load db).result = .ok ()) :
    let s := (catalog.load db).state.store
    (catalog.schemas.map (·.name)).Nodup ∧
    ∀ e ∈ catalog.schemas, ∃ b, s.schemas.get? e.name = some b ∧ b.base = e.base ∧
      OneOfEach AttributeEntry.number (AttributeEntry.Describes s.readProperty) e.attributes
        b.definitions.attributes.get? ∧
      OneOfEach SeriesEntry.number (SeriesEntry.Describes s.readProperty) e.series
        b.definitions.series.get? ∧
      ∀ x ∈ e.series, x.erasing = false →
        ((x.attributes.Pairwise fun a a' => a.number = a'.number → a'.erasing = false) ↔
          ∃ y, b.definitions.series.get? x.number = some y ∧ OneOfEach AttributeEntry.number
            (AttributeEntry.Describes s.readProperty) x.attributes y.custom?) := by
  intro s
  obtain ⟨start, db', hcached, hgained, hstored, hproperties⟩ := gained_of_load hschemas hcache h
  -- names are looked up among the properties, which are those that the schemas were loaded with
  have hread : start.property = s.readProperty := by
    funext n
    rw [hgained.gains.property_eq hcached, hgained.gains.cachesStored.property_eq]
    rw [Store.readProperty, Store.readProperty, hproperties]
  refine ⟨hgained.distinct, fun e he => ?_⟩
  obtain ⟨id, d, hbuilds, hget⟩ := hgained.stored e he
  obtain ⟨hattributes, hseries⟩ := hread ▸ hbuilds.describes
  refine ⟨_, (congrArg (·.get? e.name) hstored).trans hget, rfl, hattributes, hseries,
    fun x hx hkept => ?_⟩
  obtain ⟨y, hy, hdescribes⟩ := hseries.listed x hx
  rw [← (hdescribes.defines hkept).oneOfEach_iff]
  constructor
  · exact fun hone => ⟨y, hy, hone⟩
  · rintro ⟨y', hy', hone⟩
    obtain rfl := Option.some.inj (hy.symm.trans hy')
    exact hone

def sampleCatalog (attributes : List AttributeEntry) : Catalog where
  valueTypes := [{ name := "unit text", kind := "text", nullable := false, values := [] }]
  properties := [{ name := "unit", valueType := "unit text", indexed := false }]
  schemas := [{
    name := "well"
    base := none
    attributes := []
    series := [{
      number := 1
      name := some "depth"
      kind := some "float"
      timeDomain := some "day"
      description := none
      erasing := false
      attributes }] }]

def sampleDefining (number : UInt32) : AttributeEntry where
  number
  property := some "unit"
  value := some "m"
  erasing := false

def sampleRemoving (number : UInt32) : AttributeEntry where
  number
  property := none
  value := none
  erasing := true

private theorem result_eq_ok_of_toBool {o : Loaded} (h : o.result.toBool = true) : o.result = .ok () := by
  cases hresult : o.result with
  | ok _ => rfl
  | error p =>
    rw [hresult] at h
    cases h

theorem Catalog.load_complete_sample :
    let attributes := [sampleDefining 4, sampleRemoving 5]
    let o := (sampleCatalog attributes).load sampleEmptied
    sampleEmptied.store.schemas = ∅ ∧ sampleEmptied.CachesStored ∧ o.result = .ok () ∧
      ∃ b y, o.state.store.schemas.get? "well" = some b ∧ b.definitions.series.get? 1 = some y ∧
        OneOfEach AttributeEntry.number (AttributeEntry.Describes o.state.store.readProperty) attributes
          y.custom? := by
  intro attributes o
  have hresult : o.result = .ok () := result_eq_ok_of_toBool (by decide +kernel)
  have hcache : sampleEmptied.CachesStored := Database.cachesStored_of_uncached rfl
  have hschemas : sampleEmptied.store.schemas = ∅ := rfl
  obtain ⟨-, hall⟩ := Catalog.load_complete hschemas hcache hresult
  obtain ⟨b, hb, -, -, -, hseries⟩ := hall _ (List.mem_singleton_self _)
  have hnone : attributes.Pairwise fun a a' => a.number = a'.number → a'.erasing = false := by decide
  obtain ⟨y, hy, hone⟩ := (hseries _ (List.mem_singleton_self _) rfl).1 hnone
  exact ⟨hschemas, hcache, hresult, b, y, hb, hy, hone⟩

/-- A removal that is listed after an attribute of its number is not found, and only the removal is left.
The other order is a problem. -/
theorem Catalog.load_drops_attribute :
    let o := (sampleCatalog [sampleDefining 4, sampleRemoving 4]).load sampleEmptied
    let o' := (sampleCatalog [sampleRemoving 4, sampleDefining 4]).load sampleEmptied
    o.result = .ok () ∧
      (((o.state.store.schemas.get? "well").bind (·.definitions.series.get? 1)).bind
        (·.custom? 4)).map (·.erasing) = some true ∧
      o'.result.mapError Problem.chain =
        .error ["schema well", "series #1: attribute #4 listed twice"] := by
  refine ⟨result_eq_ok_of_toBool ?_, ?_, ?_⟩ <;> decide +kernel

end ChronicleMeta
