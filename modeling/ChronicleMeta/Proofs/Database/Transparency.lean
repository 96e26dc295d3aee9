import ChronicleMeta.Proofs.Database.Changes

/-!
The cache of a database is transparent. A run with the requests that only read, whatever room the
cache has, leaves what the run without them leaves, up to the cache, and two databases that differ
only in the cache answer alike.
-/

namespace ChronicleMeta.Database

variable {α β γ δ : Type} {db db' : Database} {cache : Cache}

/-- The database with nothing cached. -/
def bare (db : Database) : Database := db.withCache (.empty 1 Nat.one_pos)

theorem bare_withCache (db : Database) (cache : Cache) : db.bare = (db.withCache cache).bare := rfl

theorem bare_eq_iff : db.bare = db'.bare ↔ ∃ cache, db' = db.withCache cache := by
  constructor
  · intro h
    refine ⟨db'.cache, ?_⟩
    have hdb : db' = db'.bare.withCache db'.cache := rfl
    rw [hdb, ← h]
    rfl
  · rintro ⟨cache, rfl⟩
    rfl

/-- Answers that are equal in the sense given, of databases that are equal but for the cache. -/
structure Alike (f : α → γ) (r r' : Outcome Failure Database α) : Prop where
  result_eq : r.result.map f = r'.result.map f
  bare_eq : r.state.bare = r'.state.bare

theorem Alike.map {f : α → γ} {g : α → β} {f' : β → δ} {r r' : Outcome Failure Database α}
    (h : Alike f r r') (hg : ∀ a a', f a = f a' → f' (g a) = f' (g a')) :
    Alike f' (r.map g) (r'.map g) := by
  refine ⟨?_, h.bare_eq⟩
  have hresult := h.result_eq
  unfold Outcome.map
  cases hr : r.result with
  | error e => cases hr' : r'.result <;> simp_all [Except.map]
  | ok a =>
    cases hr' : r'.result with
    | error e' => simp [hr, hr', Except.map] at hresult
    | ok a' =>
      rw [hr, hr'] at hresult
      exact congrArg Except.ok (hg a a' (Except.ok.inj hresult))

theorem alike_whenOk (h : db.bare = db'.bare) {f : β → γ} {checked : Except Failure α}
    {act act' : α → Outcome Failure Database β} (hact : ∀ a, checked = .ok a → Alike f (act a) (act' a)) :
    Alike f (db.whenOk checked act) (db'.whenOk checked act') := by
  cases checked with
  | error e => exact ⟨rfl, h⟩
  | ok a => exact hact a rfl

theorem Alike.andThen {f : β → γ} {r r' : Outcome Failure Database α}
    {act act' : α → Database → Outcome Failure Database β} (h : Alike id r r')
    (hact : ∀ a, Alike f (act a r.state) (act' a r'.state)) :
    Alike f (r.andThen act) (r'.andThen act') := by
  have hresult : r.result = r'.result := by
    have hid := h.result_eq
    cases hr : r.result <;> cases hr' : r'.result <;> simp_all [Except.map]
  unfold Outcome.andThen
  rw [hresult]
  cases r'.result with
  | error e => exact ⟨rfl, h.bare_eq⟩
  | ok a => exact hact a

theorem alike_onStore (h : db.bare = db'.bare) (act : Store → Edited Store α) :
    Alike id (db.onStore act) (db'.onStore act) := by
  obtain ⟨cache, rfl⟩ := bare_eq_iff.1 h
  exact ⟨rfl, rfl⟩

theorem updateSchema_alike (b : Blueprint) :
    Alike id (db.updateSchema b) ((db.withCache cache).updateSchema b) := by
  have hdb := bare_withCache db cache
  refine alike_whenOk hdb fun _ _ => alike_whenOk hdb fun _ _ => ?_
  split_ifs
  · have hcreate := alike_onStore hdb (·.createSchema b)
    refine hcreate.andThen fun id => alike_whenOk hcreate.bare_eq fun _ _ => ?_
    exact ⟨rfl, hcreate.bare_eq⟩
  · have hupdate := alike_onStore (bare_withCache db.clearCache cache.clear) (·.updateSchema b)
    exact hupdate.andThen fun _ => ⟨rfl, hupdate.bare_eq⟩

theorem dependent?_withCache (name : String) (x : Surrogate) (names : List String) :
    (db.withCache cache).dependent? name x names = db.dependent? name x names := by
  induction names with
  | nil => rfl
  | cons other names ih =>
    unfold dependent?
    rw [ih]
    rfl

theorem deleteSchema_alike (name : String) :
    Alike id (db.deleteSchema name) ((db.withCache cache).deleteSchema name) := by
  have hcheck : (db.withCache cache).deletableSchema name = db.deletableSchema name := by
    unfold deletableSchema
    simp only [dependent?_withCache]
    rfl
  unfold deleteSchema
  rw [hcheck]
  refine alike_whenOk (bare_withCache db cache) fun _ _ => ?_
  exact alike_onStore (bare_withCache db.clearCache cache.clear) _

theorem createProperty_alike (p : Property) :
    Alike id (db.createProperty p) ((db.withCache cache).createProperty p) := by
  have hcreate := alike_onStore (bare_withCache db cache) (·.createProperty p)
  refine alike_whenOk (bare_withCache db cache) fun _ _ => hcreate.andThen fun id => ?_
  exact alike_whenOk hcreate.bare_eq fun _ _ => ⟨rfl, hcreate.bare_eq⟩

theorem updateProperty_alike (p : Property) :
    Alike id (db.updateProperty p) ((db.withCache cache).updateProperty p) := by
  refine alike_whenOk (bare_withCache db cache) fun _ _ => ?_
  exact alike_onStore (bare_withCache db.clearCache cache.clear) _

theorem Sound.property_withCache (h : Sound db) (h' : Sound (db.withCache cache)) (name : String) :
    (db.withCache cache).property name = db.property name := by
  rw [h.property_eq, h'.property_eq]
  rfl

theorem Sound.deleteProperty_alike (h : Sound db) (h' : Sound (db.withCache cache)) (name : String) :
    Alike id (db.deleteProperty name) ((db.withCache cache).deleteProperty name) := by
  have hcheck : (db.withCache cache).deletableProperty name = db.deletableProperty name := by
    unfold deletableProperty
    rw [h.property_withCache h']
    rfl
  unfold Database.deleteProperty
  rw [hcheck]
  refine alike_whenOk (bare_withCache db cache) fun _ _ => ?_
  exact alike_onStore (bare_withCache db.clearCache cache.clear) _

theorem Sound.deleteChronicle_alike (h : Sound db) (h' : Sound (db.withCache cache)) (n : String) :
    Alike id (db.deleteChronicle n) ((db.withCache cache).deleteChronicle n) := by
  refine alike_whenOk (bare_withCache db cache) fun stored _ => ?_
  obtain ⟨b, c, hclear, -⟩ := h.clearChronicle stored.surrogate
  obtain ⟨b', c', hclear', -⟩ := h'.clearChronicle stored.surrogate
  have hclear' : cache.clearChronicle stored.surrogate = .ok c' b' := hclear'
  rw [hclear, withCache, hclear']
  exact alike_onStore (bare_withCache (db.withCache c) c') (·.deleteChronicle stored.surrogate)

theorem Sound.chronicle_alike (h : Sound db) (h' : Sound (db.withCache cache)) (n : String) :
    Alike Chronicle.unshared (db.chronicle n) ((db.withCache cache).chronicle n) := by
  obtain ⟨hresult, c, hstate, -⟩ := h.chronicle n
  obtain ⟨hresult', c', hstate', -⟩ := h'.chronicle n
  constructor
  · rw [hresult, hresult']
    rfl
  · rw [hstate, hstate']
    rfl

theorem Sound.createChronicle_alike (h : Sound db) (h' : Sound (db.withCache cache))
    (n : String) (description : Option String) (schemaName : String) :
    Alike Chronicle.unshared (db.createChronicle n description schemaName)
      ((db.withCache cache).createChronicle n description schemaName) := by
  refine alike_whenOk (bare_withCache db cache) fun stored _ => ?_
  have hcreate := h.onStore (·.createChronicle stored) (h.store.createChronicle stored)
  have hcreate' := h'.onStore (·.createChronicle stored) (h'.store.createChronicle stored)
  have halike := alike_onStore (bare_withCache db cache) (·.createChronicle stored)
  exact halike.andThen fun _ => hcreate.sound.chronicle_alike hcreate'.sound n

/-- The reply without a record of which copy of its schema a chronicle holds. -/
def Reply.unshared : Reply → Reply
  | .chronicle c => .chronicle c.unshared
  | reply => reply

/-- Two sound databases that differ only in the cache answer every request alike. -/
theorem Sound.serve_alike (h : Sound db) (h' : Sound db') (hbare : db.bare = db'.bare) (r : Request) :
    Alike Reply.unshared (db.serve r) (db'.serve r) := by
  obtain ⟨cache, rfl⟩ := bare_eq_iff.1 hbare
  cases r with
  | updateSchema b => exact (updateSchema_alike b).map fun _ _ hb => congrArg Reply.blueprint hb
  | deleteSchema name => exact (deleteSchema_alike name).map fun _ _ _ => rfl
  | createProperty p => exact (createProperty_alike p).map fun _ _ hp => congrArg Reply.property hp
  | updateProperty p => exact (updateProperty_alike p).map fun _ _ _ => rfl
  | deleteProperty name => exact (h.deleteProperty_alike h' name).map fun _ _ _ => rfl
  | createChronicle n description schemaName =>
    exact (h.createChronicle_alike h' n description schemaName).map
      fun _ _ hc => congrArg Reply.chronicle hc
  | deleteChronicle n => exact (h.deleteChronicle_alike h' n).map fun _ _ _ => rfl
  | chronicle n => exact (h.chronicle_alike h' n).map fun _ _ hc => congrArg Reply.chronicle hc
  | property n =>
    have hread := h.property_withCache h' n
    constructor
    · simp only [Database.serve, hread]
    · exact hbare

theorem admits_iff_of_bare (hbare : db.bare = db'.bare) (r : Request) :
    db.Admits r ↔ db'.Admits r := by
  obtain ⟨cache, rfl⟩ := bare_eq_iff.1 hbare
  cases r <;> exact Iff.rfl

/-- A request that only reads leaves everything but the cache, and can always be made. -/
theorem Sound.serve_of_isRead (h : Sound db) {r : Request} (hr : r.isRead) :
    db.Admits r ∧ (db.serve r).state.bare = db.bare := by
  cases r with
  | chronicle n =>
    obtain ⟨cache, hstate, -⟩ := (h.chronicle n).2
    refine ⟨trivial, ?_⟩
    rw [Database.serve, Outcome.map, hstate]
    rfl
  | property n => exact ⟨trivial, rfl⟩
  | _ => cases hr

/-- Requests that only read do not matter to which requests can be made, and leave everything but
the cache. -/
theorem Sound.admissible_filter (h : Sound db) (h' : Sound db') (hbare : db.bare = db'.bare)
    (rs : List Request) :
    (db.Admissible rs ↔ db'.Admissible (rs.filter (!·.isRead))) ∧
      (db.Admissible rs → (db.run rs).bare = (db'.run (rs.filter (!·.isRead))).bare) := by
  induction rs generalizing db db' with
  | nil => exact ⟨Iff.rfl, fun _ => hbare⟩
  | cons r rs ih =>
    by_cases hr : r.isRead
    · obtain ⟨hadmits, hstate⟩ := h.serve_of_isRead hr
      have hnext := ih (h.serve hadmits).sound h' (hstate.trans hbare)
      rw [List.filter_cons_of_neg (by simp [hr])]
      refine ⟨?_, fun hrs => hnext.2 hrs.2⟩
      rw [← hnext.1]
      exact ⟨fun hrs => hrs.2, fun hrs => ⟨hadmits, hrs⟩⟩
    · have hadmits := admits_iff_of_bare hbare r
      have hstate := (h.serve_alike h' hbare r).bare_eq
      rw [List.filter_cons_of_pos (by simp [hr])]
      constructor
      · constructor
        · intro hrs
          have hnext := ih (h.serve hrs.1).sound (h'.serve (hadmits.1 hrs.1)).sound hstate
          exact ⟨hadmits.1 hrs.1, hnext.1.1 hrs.2⟩
        · intro hrs
          have hnext := ih (h.serve (hadmits.2 hrs.1)).sound (h'.serve hrs.1).sound hstate
          exact ⟨hadmits.2 hrs.1, hnext.1.2 hrs.2⟩
      · intro hrs
        have hnext := ih (h.serve hrs.1).sound (h'.serve (hadmits.1 hrs.1)).sound hstate
        exact hnext.2 hrs.2

theorem Sound.run (h : Sound db) {rs : List Request} (hrs : db.Admissible rs) :
    db.Follows (db.run rs) := by
  induction rs generalizing db with
  | nil => exact h.follows
  | cons r rs ih =>
    have hstep := h.serve hrs.1
    exact hstep.trans (ih hstep.sound hrs.2)

/-- Whatever room the cache has and whatever has been read before, a chronicle and a property are
read as the store has them at the moment. Databases that have been through the same changes have the
same objects stored and answer every request alike. -/
theorem transparent_run {database : DatabaseId} (hd : database.isBuiltin = false) (naming : Naming)
    (resolution : ResolutionConfig) {capacity : Nat} (h : 0 < capacity) {rs : List Request}
    (hrs : (fresh database capacity h naming resolution).Admissible rs) :
    let db := (fresh database capacity h naming resolution).run rs
    (∀ n, (db.chronicle n).result.map Chronicle.unshared =
      db.store.readChronicle naming resolution n) ∧
    (∀ n, db.property n = db.store.readProperty n) ∧
    ∀ (capacity' : Nat) (h' : 0 < capacity') (rs' : List Request),
      rs'.filter (!·.isRead) = rs.filter (!·.isRead) →
      let db' := (fresh database capacity' h' naming resolution).run rs'
      db'.store = db.store ∧
        ∀ r, (db'.serve r).result.map Reply.unshared = (db.serve r).result.map Reply.unshared := by
  intro db
  have hfresh := sound_fresh hd capacity h naming resolution
  have hdb := hfresh.run hrs
  refine ⟨fun n => ?_, hdb.sound.property_eq, fun capacity' h' rs' hfilter => ?_⟩
  · have hread := (hdb.sound.chronicle n).1
    rw [reread, hdb.naming_eq, hdb.resolution_eq] at hread
    exact hread
  · have hfresh' := sound_fresh hd capacity' h' naming resolution
    -- both runs leave what the run without the readings leaves
    obtain ⟨hadmissible, hbare⟩ := hfresh.admissible_filter hfresh rfl rs
    obtain ⟨hadmissible', hbare'⟩ := hfresh'.admissible_filter hfresh rfl rs'
    rw [hfilter] at hadmissible' hbare'
    have hrs' := hadmissible'.2 (hadmissible.1 hrs)
    have heq := (hbare' hrs').trans (hbare hrs).symm
    obtain ⟨cache, hcache⟩ := bare_eq_iff.1 heq.symm
    refine ⟨by rw [hcache]; rfl, fun r => ?_⟩
    exact ((hfresh'.run hrs').sound.serve_alike hdb.sound heq r).result_eq

def sampleProperty (id? : Option UInt64) (indexed : Bool) : Property where
  surrogate := ⟨⟨1⟩, .property, id?⟩
  name := "unit"
  valueType := Builtin.textType
  indexed

def sampleSchema : Blueprint where
  surrogate := .pending ⟨1⟩ .schema
  name := "s"
  definitions := {
    attributes := { committed := {
      byNumber := .ofList [(1, { number := 1, property := some (sampleProperty (some 1) false) })]
      byName := .ofList [("unit", 1)] } } }

def sampleRequests : List Request := [
  .createProperty (sampleProperty none false),
  .updateSchema sampleSchema,
  .createChronicle "c" none "s",
  .chronicle "c",
  .updateProperty (sampleProperty (some 1) true)]

def sampleDatabase : Database :=
  (fresh ⟨1⟩ 1 Nat.one_pos {} { requireComplete := false }).run sampleRequests

theorem transparent_run_sample :
    (sampleDatabase.chronicle "c").result.map Chronicle.unshared =
      sampleDatabase.store.readChronicle {} { requireComplete := false } "c" ∧
    (sampleDatabase.store.readChronicle {} { requireComplete := false } "c").map
      (·.schema.schema.properties) = .ok [sampleProperty (some 1) true] ∧
    sampleDatabase.property "unit" = .ok (sampleProperty (some 1) true) := by
  have hproperties : sampleSchema.properties = [sampleProperty (some 1) false] := by rfl
  have hadmissible : (fresh ⟨1⟩ 1 Nat.one_pos {} { requireComplete := false }).Admissible
      sampleRequests := by
    refine ⟨trivial, fun p hp => ?_, trivial, trivial, trivial, trivial⟩
    rw [hproperties] at hp
    obtain rfl := List.mem_singleton.1 hp
    exact .inr rfl
  have hread := transparent_run (by decide) {} { requireComplete := false } Nat.one_pos hadmissible
  refine ⟨hread.1 "c", ?_, ?_⟩
  · rfl
  · exact (hread.2.1 "unit").trans (by rfl)

end ChronicleMeta.Database
