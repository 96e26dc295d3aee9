import ChronicleMeta.Proofs.Cache.Effect
import ChronicleMeta.Proofs.Database.Changes
import ChronicleMeta.Proofs.Database.Chronicles
import ChronicleMeta.Proofs.Store.Representation

/-!
What the creation of a chronicle leaves, whatever properties the stored schemas refer to. It is stored
before it is read, and reading it takes its schema up in the cache, which may refuse a schema that can
be resolved: then there is an error, and the chronicle stays stored.
-/

namespace ChronicleMeta

/-- A stored schema refers to the property. -/
def Store.RefersTo (s : Store) (p : Property) : Prop :=
  ∃ n b, s.schemas.get? n = some b ∧ p ∈ b.properties

/-- The stored schemas refer to one property under each identity, and to no other copies of built-in
ones. -/
structure Store.Uniform (s : Store) : Prop where
  builtin : ∀ p, s.RefersTo p → p.isPinned → Builtin.property? p.name = some p
  counted : ∀ k p q, s.RefersTo p → s.RefersTo q → p.countsAs k → q.countsAs k → p = q

/-- Whether the property is a built-in one or has been stored, so that it can be shared. -/
def Property.isShareable (p : Property) : Bool := p.isPinned || p.surrogate.identity?.isSome

namespace Database

/-- Databases that come about: a fresh one, one to which a request has been made, whether it has
succeeded or failed, and one with other permissions, or with a value type stored past it. -/
inductive Reachable : Database → Prop
  | fresh (database : DatabaseId) (capacity : Nat) (h : 0 < capacity) (naming : Naming)
      (resolution : ResolutionConfig) :
      Reachable (.fresh database capacity h naming resolution)
  | served {db : Database} (h : Reachable db) (r : Request) : Reachable (db.serve r).state
  | permitted {db : Database} (h : Reachable db) (granted : Permissions) :
      Reachable { db with granted }
  | typed {db : Database} (h : Reachable db) (t : ValueType) :
      Reachable (db.withStore (db.store.insertValueType t).state)

/-- A stored schema refers to the property, which is counted under the identity. -/
def Mentioned (db : Database) (k : Identity) (p : Property) : Prop :=
  p.countsAs k ∧ db.store.RefersTo p

/-- The schema is what the stored one of the identity resolves to, but for its properties: each is the
built-in one of its name, or one of its identity that a stored schema refers to. -/
def SharedAs (db : Database) (k : Identity) (t : Schema) : Prop :=
  ∃ s before after, db.Resolves k s ∧
    (∀ j e, before.properties.get? j = some e → db.Mentioned j e.value) ∧
    (s.mapProperties Cache.share).run before = .ok (t, after)

/-- A database whose cache holds only what has been made of stored schemas. -/
structure Traced (db : Database) : Prop where
  tables : db.store.Tables
  coherent : db.Coherent db.SharedAs db.Mentioned

variable {db : Database} {k ks : Identity} {n : String} {c : Chronicle} {s : Schema}
  {stored : StoredChronicle}

theorem Traced.grown (h : db.Traced) {s : Store} (hs : s.Tables) (hgrows : db.store.Grows s) :
    (db.withStore s).Traced := by
  have hmentioned : ∀ k p, db.Mentioned k p → (db.withStore s).Mentioned k p :=
    fun k p ⟨hk, n, b, hb, hp⟩ => ⟨hk, n, b, hgrows.schemas n b hb, hp⟩
  refine ⟨hs, h.coherent.grown hgrows.chronicles (fun k t ht => ?_) hmentioned⟩
  obtain ⟨s', before, after, hresolves, hbefore, hrun⟩ := ht
  exact ⟨s', before, after, hresolves.grown h.tables.schemas hs.schemas hgrows.schemas,
    fun j e he => hmentioned j _ (hbefore j e he), hrun⟩

/-- With nothing cached the store may change in any way. -/
theorem traced_cleared (db : Database) {s : Store} (hs : s.Tables) :
    (db.clearCache.withStore s).Traced :=
  ⟨hs, coherent_of_empty rfl rfl rfl rfl⟩

theorem Resolves.refersTo (hs : db.Resolves ks s) {p : Property} (hp : p ∈ s.properties) :
    db.store.RefersTo p := by
  obtain ⟨b, hb, hresolve⟩ := hs
  have hstored : db.store.Mentions db.store.RefersTo := fun n b hb p hp => ⟨n, b, hb, hp⟩
  exact hstored.resolve hb hresolve p hp

/-- The schema is shared already, or it is what the stored one of its identity resolves to. -/
def Offers (db : Database) (ks : Identity) (s : Schema) : Prop :=
  s.surrogate.identity? = some ks ∧ (db.cache.schemas.get? ks = none → db.Resolves ks s)

theorem Traced.acquire (h : db.Traced) (hs : db.Offers ks s) {shared : SharedSchema} {cache : Cache}
    (ha : db.cache.acquireSchema ks s = .ok (shared, cache)) :
    Cache.Backed db.SharedAs db.Mentioned cache (shared :: db.cache.users) := by
  refine h.coherent.backed.cons hs.1 ha fun hnone copy sharing hrun => ?_
  have hresolves := hs.2 hnone
  exact ⟨⟨s, _, _, hresolves, h.coherent.backed.properties, hrun⟩,
    Cache.told_of_mapProperties hresolves.frozen (fun p hp k hk => ⟨hk, hresolves.refersTo hp⟩)
      h.coherent.backed.properties hrun⟩

/-- A stored chronicle is read with a schema that is shared or resolved, if it can be read. -/
theorem Traced.of_readChronicle (h : db.Traced) (hread : db.readChronicle n = .ok c) :
    ∃ stored k ks, db.store.chronicles.get? n = some stored ∧ stored.surrogate.identity? = some k ∧
      stored.schema.identity? = some ks ∧ db.Current k c ∧ c.fullName = n ∧
      db.Offers ks c.schema.schema := by
  obtain ⟨stored, hload, hread⟩ := bind_eq_ok_iff.1 hread
  obtain ⟨_, -, hread⟩ := bind_eq_ok_iff.1 hread
  have hget := get?_of_loadChronicle (mapError_eq_ok_iff.1 hload)
  have hname := h.tables.chronicles.name_eq n stored hget
  dsimp only at hread
  split at hread
  next shared hshared =>
    obtain rfl := pure_eq_ok_iff.1 hread
    obtain ⟨e, he, rfl⟩ := Option.map_eq_some_iff.1 hshared
    obtain ⟨ks, hks, he⟩ := Option.bind_eq_some_iff.1 he
    have hidentity := (h.coherent.backed.tallied.mem_users he).2.2
    have hsurrogate := (Surrogate.identity?_eq_some_iff.1 hks).trans
      (Surrogate.identity?_eq_some_iff.1 hidentity).symm
    obtain ⟨k, hk, hcurrent⟩ := current_ofFullName h.tables.chronicles hget hsurrogate
    exact ⟨stored, k, ks, hget, hk, hks, hcurrent, hname, hidentity,
      fun hnone => by cases hnone.symm.trans he⟩
  next =>
    split at hread
    next => cases hread
    next b hb =>
      obtain ⟨s, hs, hread⟩ := bind_eq_ok_iff.1 hread
      obtain rfl := pure_eq_ok_iff.1 hread
      obtain ⟨-, hagrees⟩ := h.tables.schemas.findValue?_eq_some_iff.1 hb
      obtain ⟨hsame, ks, hks⟩ := Surrogate.agrees_iff.1 hagrees
      have hsurrogate : s.surrogate = stored.schema := (Blueprint.resolve_eq_ok hs).1.trans hsame
      have hresolves : db.Resolves ks s :=
        ⟨b, Surrogate.identity?_eq_some_iff.1 hks ▸ hb, hs⟩
      obtain ⟨k, hk, hcurrent⟩ := current_ofFullName h.tables.chronicles hget
        (show stored.schema = ({ schema := s } : SharedSchema).schema.surrogate from hsurrogate.symm)
      exact ⟨stored, k, ks, hget, hk, hks, hcurrent, hname, hsurrogate ▸ hks, fun _ => hresolves⟩

/-- Reading a chronicle leaves what is cached made of stored schemas. -/
theorem Traced.chronicle (h : db.Traced) (n : String) : (db.chronicle n).state.Traced := by
  have hlooked : (db.withCache (db.cache.lookUpName n).2).Traced := ⟨h.tables, h.coherent.lookUpName n⟩
  unfold Database.chronicle
  dsimp only
  split
  · exact hlooked
  · cases hread : (db.withCache (db.cache.lookUpName n).2).readChronicle n with
    | error e => exact hlooked
    | ok c =>
      obtain ⟨stored, k, ks, -, -, -, hc, -, hs⟩ := hlooked.of_readChronicle hread
      rw [whenOk]
      obtain ⟨e, hstore, -⟩ | ⟨cached, cache, -, -, hstore, hcoherent⟩ |
          ⟨shared, c₁, cache, -, hstore, -, hcoherent⟩ :=
        hlooked.coherent.store_cases hc hs.1 fun _ _ => hlooked.acquire hs
      · rw [hstore]
        exact hlooked
      · rw [hstore]
        exact ⟨h.tables, hcoherent.lookUp c.surrogate⟩
      · rw [hstore]
        exact ⟨h.tables, hcoherent⟩

theorem Traced.deleteChronicle (h : db.Traced) (n : String) : (db.deleteChronicle n).state.Traced := by
  unfold Database.deleteChronicle
  cases hdeletable : db.deletableChronicle n with
  | error e => exact h
  | ok stored =>
    have hget := of_deletableChronicle hdeletable
    obtain ⟨b, cache, hclear, hcoherent, hnone⟩ := h.coherent.clearChronicle stored.surrogate
    have hdelete := Store.deleteChronicle_eq_ok h.tables.chronicles hget
    have htables := (h.tables.deleteChronicle stored.surrogate).1
    rw [hdelete] at htables
    simp only [whenOk, Failure.ofError, Except.mapError, hclear, Outcome.inState, Outcome.andThen,
      Outcome.ok, onStore, withCache, Outcome.mapError, hdelete]
    exact ⟨htables, hcoherent.deleted hget hnone⟩

theorem Traced.serve (h : db.Traced) (r : Request) : (db.serve r).state.Traced := by
  have hadded : ∀ s : Store, s.Tables → db.store.Grows s → (db.withStore s).Traced := fun s => h.grown
  cases r with
  | updateSchema b =>
    change (db.updateSchema b).state.Traced
    unfold Database.updateSchema save
    refine holds_whenOk h fun _ => holds_whenOk h fun _ => ?_
    split
    · have hcreated := hadded _ (h.tables.createSchema b).1 (Store.grows_createSchema _ b)
      exact holds_andThen hcreated fun id => holds_whenOk hcreated fun _ => hcreated
    · have hupdated := traced_cleared db (h.tables.updateSchema b).1
      exact holds_andThen hupdated fun _ => hupdated
  | deleteSchema name =>
    change (db.deleteSchema name).state.Traced
    exact holds_whenOk h fun b => traced_cleared db (h.tables.deleteSchema b.surrogate).1
  | createProperty p =>
    have hcreated := hadded _ (h.tables.createProperty p).1 (Store.grows_createProperty _ p)
    change (db.createProperty p).state.Traced
    exact holds_whenOk h fun _ =>
      holds_andThen hcreated fun id => holds_whenOk hcreated fun _ => hcreated
  | updateProperty p =>
    change (db.updateProperty p).state.Traced
    exact holds_whenOk h fun _ => traced_cleared db (h.tables.updateProperty p).1
  | deleteProperty name =>
    change (db.deleteProperty name).state.Traced
    exact holds_whenOk h fun p => traced_cleared db (h.tables.deleteProperty p.surrogate).1
  | createChronicle fullName description schemaName =>
    change (db.createChronicle fullName description schemaName).state.Traced
    refine holds_whenOk h fun stored => ?_
    have hcreated := hadded _ (h.tables.createChronicle stored).1 (Store.grows_createChronicle _ stored)
    exact holds_andThen hcreated fun _ => hcreated.chronicle fullName
  | deleteChronicle fullName => exact h.deleteChronicle fullName
  | chronicle fullName => exact h.chronicle fullName
  | property name => exact h

theorem Reachable.traced (h : db.Reachable) : db.Traced := by
  induction h with
  | fresh database capacity h naming resolution =>
    exact ⟨(Store.consistent_empty database).tables, coherent_of_empty rfl rfl rfl rfl⟩
  | served _ r ih => exact ih.serve r
  | permitted _ granted ih =>
    exact ⟨ih.tables, ih.coherent.unique, ih.coherent.backed, ih.coherent.current, ih.coherent.names⟩
  | @typed db _ t ih =>
    have hinserted : (db.store.insertValueType t).state = (db.store.createValueType t).state :=
      congrArg Outcome.state (Store.map_insertValueType db.store t)
    exact hinserted ▸ ih.grown (ih.tables.createValueType t).1 (Store.grows_createValueType _ t)

/-- Whether a schema can be taken up does not depend on what the cache has done. -/
theorem exists_acquireSchema_record_iff (cache : Cache) (hit : Bool) :
    (∃ r, (cache.record hit).acquireSchema ks s = .ok r) ↔ ∃ r, cache.acquireSchema ks s = .ok r := by
  unfold Cache.acquireSchema Cache.record
  dsimp only
  cases cache.schemas.get? ks with
  | some entry => exact ⟨fun _ => ⟨_, rfl⟩, fun _ => ⟨_, rfl⟩⟩
  | none => cases (s.mapProperties Cache.share).run { properties := cache.properties } <;> simp

/-- A stored chronicle whose schema can be resolved is read with that schema or with one that is shared. In
the cache both are taken up in the same way. -/
theorem exists_readChronicle_eq_ok (hall : db.granted = .all)
    (hget : db.store.chronicles.get? n = some stored) (hks : stored.schema.identity? = some ks)
    (hs : db.Resolves ks s) :
    ∃ shared : SharedSchema,
      db.readChronicle n = .ok (.ofFullName db.naming stored.surrogate stored.fullName
        stored.description stored.parent shared) ∧
      db.cache.acquireSchema ks shared.schema = db.cache.acquireSchema ks s := by
  have hcheck : db.check .read stored.surrogate = .ok () := by
    simp [check, Permissions.check, hall, Permissions.all]
  have hschema : db.cache.schema? stored.schema = (db.cache.schemas.get? ks).map (·.value) := by
    rw [Cache.schema?, hks]
    rfl
  simp only [readChronicle, loadChronicle, hget, lift_ok, ok_bind, hcheck, hschema]
  cases hcached : db.cache.schemas.get? ks with
  | some e => exact ⟨e.value, rfl, by simp only [Cache.acquireSchema, hcached]⟩
  | none =>
    obtain ⟨b, hb, hresolve⟩ := hs
    have hload : db.store.loadSchema stored.schema = some b := by
      rw [Surrogate.identity?_eq_some_iff.1 hks, hb]
    refine ⟨{ schema := s }, ?_, rfl⟩
    simp only [Option.map_none, hload, hresolve, ok_bind]
    rfl

/-- A stored chronicle that is not cached is read if its schema, which can be resolved, can be taken up
in the cache. -/
theorem Traced.chronicle_of_new (h : db.Traced) (hall : db.granted = .all)
    (hget : db.store.chronicles.get? n = some stored) (hname : db.cache.names.get? n = none)
    (hk : stored.surrogate.identity? = some k) (hnew : db.cache.chronicles.get? k = none)
    (hks : stored.schema.identity? = some ks) (hs : db.Resolves ks s) :
    ((∃ e, (db.chronicle n).result = .error e) ∧ ¬∃ r, db.cache.acquireSchema ks s = .ok r) ∨
    (∃ r, db.cache.acquireSchema ks s = .ok r) ∧ ∃ shared, db.SharedAs ks shared.schema ∧
      (db.chronicle n).result = .ok (.ofFullName db.naming stored.surrogate stored.fullName
        stored.description stored.parent shared) := by
  have hlookUp : db.cache.lookUpName n = (none, db.cache.record false) := by
    simp only [Cache.lookUpName, hname]
  have h' : (db.withCache (db.cache.record false)).Traced :=
    ⟨h.tables, h.coherent.reordered (.refl _) (db.cache.record false).stats⟩
  have hresolves : (db.withCache (db.cache.record false)).Resolves ks s := hs
  obtain ⟨shared, hread, hsame⟩ := exists_readChronicle_eq_ok (by exact hall) (by exact hget) hks hresolves
  obtain ⟨stored', k', ks', hget', hk', hks', hc, -, hoffers⟩ := h'.of_readChronicle hread
  obtain rfl : stored = stored' := Option.some.inj (hget.symm.trans hget')
  obtain rfl : k = k' := Option.some.inj (hk.symm.trans hk')
  obtain rfl : ks = ks' := Option.some.inj (hks.symm.trans hks')
  have htaken : (∃ r, db.cache.acquireSchema ks s = .ok r) ↔
      ∃ r, (db.cache.record false).acquireSchema ks shared.schema = .ok r :=
    (exists_acquireSchema_record_iff db.cache false).symm.trans (hsame ▸ .rfl)
  rw [htaken]
  obtain ⟨e, hstore, ha⟩ | ⟨cached, -, hcached, -⟩ | ⟨shared', c₁, cache, ha, hstore, hshared, -⟩ :=
    h'.coherent.store_cases hc hoffers.1 fun _ _ => h'.acquire hoffers
  · have hrun : (db.chronicle n).result = .error (.error e) := by
      simp only [Database.chronicle, hlookUp, hread, whenOk, hstore, Outcome.inState,
        Outcome.andThen, Outcome.fail]
    refine .inl ⟨⟨_, hrun⟩, ?_⟩
    rintro ⟨r, hr⟩
    cases hr.symm.trans ha
  · cases hnew.symm.trans hcached
  · refine .inr ⟨⟨_, ha⟩, shared', hshared, ?_⟩
    simp only [Database.chronicle, hlookUp, hread, whenOk, hstore, Outcome.inState,
      Outcome.andThen, Outcome.ok]
    rfl

/-- A full name under which nothing is stored leads to nothing cached. -/
theorem Traced.names_eq_none (h : db.Traced) (hfree : db.store.chronicles.get? n = none) :
    db.cache.names.get? n = none := by
  rw [Option.eq_none_iff_forall_ne_some]
  intro k hk
  obtain ⟨c, hc, rfl⟩ := h.coherent.names n k hk
  obtain ⟨stored, hstored, -⟩ := h.coherent.current k c hc
  cases hfree.symm.trans hstored

/-- An identity with an id that has not been assigned leads to nothing cached. -/
theorem Traced.chronicles_eq_none (h : db.Traced) {database : DatabaseId} {id : UInt64}
    (hid : db.store.lastId.toNat < id.toNat) :
    db.cache.chronicles.get? ⟨database, .chronicle, id⟩ = none := by
  rw [Option.eq_none_iff_forall_ne_some]
  intro c hc
  obtain ⟨stored, hstored, hk, -⟩ := h.coherent.current _ c hc
  obtain ⟨id', hid', hle⟩ := h.tables.chronicles.owned _ stored hstored
  rw [hid'] at hk
  cases hk
  omega

/-- The chronicle is stored as a new one under the full name, and nothing else is stored. -/
structure Creates (db : Database) (fullName : String) (description : Option String)
    (schemaName : String) (c : StoredChronicle) (s : Store) : Prop where
  free : db.store.chronicles.get? fullName = none
  fullName_eq : c.fullName = fullName
  description_eq : c.description = description
  parent : db.store.ParentOf db.naming fullName c.parent
  schema : ∃ b, db.store.schemas.get? schemaName = some b ∧ c.schema = b.surrogate
  /-- The next id, which is a new one. -/
  surrogate_eq : c.surrogate = .committed db.store.database .chronicle db.store.nextId
  lastId_lt : db.store.lastId.toNat < db.store.nextId.toNat
  store_eq : s = { db.store with
    lastId := db.store.nextId
    chronicles := db.store.chronicles.insert fullName c }

variable {fullName schemaName : String} {description : Option String} {c : StoredChronicle}
  {s' : Store} {t : Schema}

theorem Creates.resolves_iff (h : db.Creates fullName description schemaName c s') :
    (db.withStore s').Resolves k t ↔ db.Resolves k t := by
  rw [h.store_eq]
  rfl

theorem Creates.sharedAs_iff (h : db.Creates fullName description schemaName c s') :
    (db.withStore s').SharedAs k t ↔ db.SharedAs k t := by
  rw [h.store_eq]
  rfl

/-- The cache can take the schema of the name up, if there is one that can be resolved. -/
def Sharable (db : Database) (schemaName : String) : Prop :=
  ∀ b ks s, db.store.schemas.get? schemaName = some b → b.surrogate.identity? = some ks →
    b.resolve db.store.source db.resolution = .ok s → ∃ r, db.cache.acquireSchema ks s = .ok r

/-- The chronicle as read: what is stored of it, with its schema resolved and its properties shared. -/
structure Shows (db : Database) (c : StoredChronicle) (x : Chronicle) : Prop where
  eq_ofFullName : x = .ofFullName db.naming c.surrogate c.fullName c.description c.parent x.schema
  sharedAs : ∃ ks, c.schema.identity? = some ks ∧ db.SharedAs ks x.schema.schema

theorem Traced.resolves (h : db.Traced) {b : Blueprint} (hb : db.store.schemas.get? n = some b)
    (hks : b.surrogate.identity? = some ks) (hs : b.resolve db.store.source db.resolution = .ok s) :
    db.Resolves ks s := by
  refine ⟨b, h.tables.schemas.findValue?_eq_some_iff.2 ⟨?_, ?_⟩, hs⟩
  · rw [h.tables.schemas.name_eq n b hb, hb]
  · exact Surrogate.agrees_ofIdentity_iff.2 (Surrogate.identity?_eq_some_iff.1 hks)

/-- A chronicle that is created is stored, and then read. -/
theorem createChronicle_stages (db : Database) (fullName : String) (description : Option String)
    (schemaName : String) :
    (∃ e, db.createChronicle fullName description schemaName = .fail db e) ∨
      ∃ c stored b s, db.Creates fullName description schemaName c (db.store.createChronicle stored).state ∧
        db.store.schemas.get? schemaName = some b ∧ c.schema = b.surrogate ∧
        b.resolve db.store.source db.resolution = .ok s ∧
        db.createChronicle fullName description schemaName =
          (db.withStore (db.store.createChronicle stored).state).chronicle fullName := by
  unfold Database.createChronicle
  cases hcreatable : db.creatableChronicle fullName description schemaName with
  | error e => exact .inl ⟨e, rfl⟩
  | ok stored =>
    obtain ⟨parent, b, -, hparent, hb, ⟨s, hs⟩, hstored⟩ := of_creatableChronicle hcreatable
    obtain ⟨e, hstore⟩ | ⟨hfree, hlt, hstore⟩ := Store.createChronicle_cases db.store stored
    · refine .inl ⟨.error e, ?_⟩
      simp only [whenOk, onStore, hstore]
      rfl
    · refine .inr ⟨{ stored with surrogate := .committed db.store.database .chronicle db.store.nextId },
        stored, b, s, ?_, hb, by rw [hstored], hs, ?_⟩
      · rw [hstore, hstored]
        rw [hstored] at hfree
        exact ⟨hfree, rfl, rfl, hparent, ⟨b, hb, rfl⟩, rfl, hlt, rfl⟩
      · simp only [whenOk, onStore, hstore]
        rfl

/-- All that the creation of a chronicle does: it fails and stores nothing, or it stores the chronicle
and gives it back unless the cache cannot take the schema up. -/
theorem Traced.createChronicle_cases (h : db.Traced) (hall : db.granted = .all) (fullName : String)
    (description : Option String) (schemaName : String) :
    let r := db.createChronicle fullName description schemaName
    (∃ e, r.result = .error e) ∧ r.state.store = db.store ∨
      ∃ c, db.Creates fullName description schemaName c r.state.store ∧
        ((∃ e, r.result = .error e) ∧ ¬db.Sharable schemaName ∨
          db.Sharable schemaName ∧ ∃ x, r.result = .ok x ∧ db.Shows c x) := by
  dsimp only
  obtain ⟨e, hrun⟩ | ⟨c, stored, b, s, hcreates, hb, hschema, hs, hrun⟩ :=
    createChronicle_stages db fullName description schemaName
  · rw [hrun]
    exact .inl ⟨⟨e, rfl⟩, rfl⟩
  · have h₁ := h.grown (h.tables.createChronicle stored).1 (Store.grows_createChronicle db.store stored)
    rw [hrun]
    generalize (db.store.createChronicle stored).state = s' at *
    refine .inr ⟨c, by rw [store_chronicle]; exact hcreates, ?_⟩
    have hget : s'.chronicles.get? fullName = some c := by
      rw [hcreates.store_eq]
      exact SortedMap.get?_insert_self _ _ _
    obtain ⟨id, hid, -⟩ := h.tables.schemas.owned _ b hb
    have hks : b.surrogate.identity? = some ⟨db.store.database, .schema, id⟩ := by rw [hid]; rfl
    have hsharable : db.Sharable schemaName ↔
        ∃ r, db.cache.acquireSchema ⟨db.store.database, .schema, id⟩ s = .ok r := by
      constructor
      · exact fun hsharable => hsharable b _ s hb hks hs
      · intro hr b' ks' s' hb' hks' hs'
        obtain rfl : b = b' := Option.some.inj (hb.symm.trans hb')
        obtain rfl := Option.some.inj (hks.symm.trans hks')
        obtain rfl : s = s' := Except.ok.inj (hs.symm.trans hs')
        exact hr
    have hread := h₁.chronicle_of_new hall hget (h.names_eq_none hcreates.free)
      (by rw [hcreates.surrogate_eq]; rfl) (h.chronicles_eq_none hcreates.lastId_lt)
      (hschema ▸ hks) (hcreates.resolves_iff.2 (h.resolves hb hks hs))
    rw [hsharable]
    rcases hread with ⟨hfail, hnot⟩ | ⟨hr, shared, hshared, hok⟩
    · exact .inl ⟨hfail, hnot⟩
    · exact .inr ⟨hr, _, hok, rfl, _, hschema ▸ hks, hcreates.sharedAs_iff.1 hshared⟩

/-- Where the schemas refer to one property under each identity, a property of theirs that can be
shared is what is shared. -/
theorem stable_of_uniform (hu : db.store.Uniform) {p : Property} (hp : db.store.RefersTo p)
    (hshareable : p.isShareable) : Cache.Stable db.Mentioned p := by
  cases hpin : p.isPinned with
  | true => exact .inl ⟨hpin, hu.builtin p hp hpin⟩
  | false =>
    rw [Property.isShareable, hpin, Bool.false_or] at hshareable
    obtain ⟨k, hk⟩ := Option.isSome_iff_exists.1 hshareable
    have hcounts := Property.countsAs_iff.2 ⟨hpin, hk⟩
    exact .inr ⟨hpin, k, hk, ⟨hcounts, hp⟩, fun q hq => hu.counted k q p hq.2 hp hq.1 hcounts⟩

theorem Traced.sharable (h : db.Traced) (hu : db.store.Uniform)
    (hshareable : ∀ p, db.store.RefersTo p → p.isShareable) (schemaName : String) :
    db.Sharable schemaName := by
  intro b ks s hb hks hresolve
  have hsurrogate := (Blueprint.resolve_eq_ok hresolve).1
  have hresolves := h.resolves hb hks hresolve
  have hbacked : Cache.Backed (fun _ _ => True) db.Mentioned db.cache db.cache.users :=
    ⟨h.coherent.backed.tallied, fun _ _ _ => trivial, h.coherent.backed.properties⟩
  obtain ⟨shared, c', ha, -⟩ := hbacked.acquire (hsurrogate ▸ hks) trivial hresolves.frozen fun p hp =>
    stable_of_uniform hu (hresolves.refersTo hp) (hshareable p (hresolves.refersTo hp))
  exact ⟨_, ha⟩

theorem SharedAs.resolves (ht : db.SharedAs k s) (hu : db.store.Uniform) : db.Resolves k s := by
  obtain ⟨s', before, after, hresolves, hbefore, hrun⟩ := ht
  obtain ⟨d, hd, rfl⟩ := Schema.mapProperties_eq_ok hrun
  have hfrozen := hresolves.frozen
  -- each property has been shared, so it could be
  have hshareable : ∀ p ∈ s'.properties, p.isShareable := by
    intro p hp
    obtain ⟨q, -, s₁, s₂, hstep⟩ := exists_step_of_mapM_eq_ok (hfrozen.mapProperties hd).2 hp
    obtain ⟨-, hpin, -⟩ | ⟨j, hj, -⟩ := Cache.share_eq_ok hstep
    · rw [Property.isShareable, hpin, Bool.true_or]
    · rw [Property.isShareable, (Property.countsAs_iff.1 hj).2, Option.isSome_some, Bool.or_true]
  obtain ⟨after', hself, -⟩ := hfrozen.mapProperties_eq_self (f := Cache.share)
    (I := fun s => ∀ j e, s.properties.get? j = some e → db.Mentioned j e.value)
    (fun p hp s hs => (stable_of_uniform hu (hresolves.refersTo hp) (hshareable p hp)).share hs)
    hbefore
  obtain ⟨rfl, -⟩ := Prod.mk.inj (Except.ok.inj (hd.symm.trans hself))
  exact hresolves

/-- What it takes for a creation to be all or nothing. A failed one stores nothing if the cache can take
the schema up, and a successful one stores one new chronicle and gives back what it has stored. The
cache can take up every schema where the stored ones agree on their properties, all of which have been
stored; a schema that it cannot take up leaves an error behind, and perhaps a chronicle. -/
theorem createChronicle_atomic (h : db.Reachable) (hall : db.granted = .all) (fullName : String)
    (description : Option String) (schemaName : String) :
    let r := db.createChronicle fullName description schemaName
    (∀ e, r.result = .error e → db.Sharable schemaName → r.state.store = db.store) ∧
    (∀ x, r.result = .ok x → ∃ c, db.Creates fullName description schemaName c r.state.store ∧
      db.Shows c x ∧ (db.store.Uniform →
        ∃ ks, c.schema.identity? = some ks ∧ db.Resolves ks x.schema.schema)) ∧
    (¬db.Sharable schemaName → ∃ e, r.result = .error e ∧
      (r.state.store = db.store ∨ ∃ c, db.Creates fullName description schemaName c r.state.store)) ∧
    (db.store.Uniform → (∀ p, db.store.RefersTo p → p.isShareable) → db.Sharable schemaName) := by
  intro r
  have hcases := h.traced.createChronicle_cases hall fullName description schemaName
  refine ⟨fun e he hsharable => ?_, fun x hx => ?_, fun hnot => ?_,
    fun hu hshareable => h.traced.sharable hu hshareable schemaName⟩
  · obtain ⟨-, hstore⟩ | ⟨c, -, ⟨-, hnot⟩ | ⟨-, x, hx, -⟩⟩ := hcases
    · exact hstore
    · exact absurd hsharable hnot
    · cases he.symm.trans hx
  · obtain ⟨⟨e, he⟩, -⟩ | ⟨c, hcreates, ⟨⟨e, he⟩, -⟩ | ⟨-, x', hx', hshows⟩⟩ := hcases
    · cases he.symm.trans hx
    · cases he.symm.trans hx
    · obtain rfl : x' = x := Except.ok.inj (hx'.symm.trans hx)
      obtain ⟨ks, hks, hshared⟩ := hshows.sharedAs
      exact ⟨c, hcreates, hshows, fun hu => ⟨ks, hks, hshared.resolves hu⟩⟩
  · obtain ⟨⟨e, he⟩, hstore⟩ | ⟨c, hcreates, ⟨⟨e, he⟩, -⟩ | ⟨hsharable, -⟩⟩ := hcases
    · exact ⟨e, he, .inl hstore⟩
    · exact ⟨e, he, .inr ⟨c, hcreates⟩⟩
    · exact absurd hsharable hnot

def draftProperty (id? : Option UInt64) : Property where
  surrogate := ⟨⟨1⟩, .property, id?⟩
  name := "unit"
  valueType := Builtin.textType

def draftSchema (id? : Option UInt64) : Blueprint where
  surrogate := .pending ⟨1⟩ .schema
  name := "s"
  definitions := {
    attributes := { committed := {
      byNumber := .ofList [(1, { number := 1, property := some (draftProperty id?) })]
      byName := .ofList [("unit", 1)] } } }

def draftDatabase (id? : Option UInt64) : Database :=
  ((fresh ⟨1⟩ 1 Nat.one_pos {} { requireComplete := false }).serve
    (.updateSchema (draftSchema id?))).state

theorem reachable_draftDatabase (id? : Option UInt64) : (draftDatabase id?).Reachable :=
  .served (.fresh _ _ _ _ _) _

theorem refersTo_draftDatabase {id? : Option UInt64} {p : Property}
    (hp : (draftDatabase id?).store.RefersTo p) : p = draftProperty id? := by
  obtain ⟨n, b, hb, hp⟩ := hp
  have hschemas : (draftDatabase id?).store.schemas =
      .insert ∅ "s" (Blueprint.close { draftSchema id? with
        surrogate := .committed ⟨1⟩ .schema 1 }) := by rfl
  rw [hschemas, SortedMap.get?_insert, SortedMap.get?_empty] at hb
  split_ifs at hb
  obtain rfl := Option.some.inj hb
  exact List.mem_singleton.1 hp

theorem createChronicle_atomic_sample :
    (draftDatabase (some 5)).Sharable "s" ∧
    ∃ x, ((draftDatabase (some 5)).createChronicle "c" none "s").result = .ok x ∧
      ∃ c ks, (draftDatabase (some 5)).Creates "c" none "s" c
        ((draftDatabase (some 5)).createChronicle "c" none "s").state.store ∧
        c.schema.identity? = some ks ∧ (draftDatabase (some 5)).Resolves ks x.schema.schema := by
  obtain ⟨-, hok, -, hsharable⟩ :=
    createChronicle_atomic (reachable_draftDatabase (some 5)) rfl "c" none "s"
  have huniform : (draftDatabase (some 5)).store.Uniform := by
    refine ⟨fun p hp hpin => ?_, fun k p q hp hq _ _ => ?_⟩
    · rw [refersTo_draftDatabase hp] at hpin
      cases hpin
    · rw [refersTo_draftDatabase hp, refersTo_draftDatabase hq]
  have hshareable : ∀ p, (draftDatabase (some 5)).store.RefersTo p → p.isShareable := by
    intro p hp
    rw [refersTo_draftDatabase hp]
    rfl
  refine ⟨hsharable huniform hshareable, _, rfl, ?_⟩
  obtain ⟨c, hcreates, -, hresolves⟩ := hok _ rfl
  obtain ⟨ks, hks, hresolves⟩ := hresolves huniform
  exact ⟨c, ks, hcreates, hks, hresolves⟩

/-- A chronicle of a schema whose property is in construction is stored, and there is an error. -/
theorem createChronicle_pending_property :
    (draftDatabase none).Reachable ∧ (draftDatabase none).granted = .all ∧
    ((draftDatabase none).createChronicle "c" none "s").result =
      .error (.error (.inConstruction .property)) ∧
    (draftDatabase none).store.chronicles.contains "c" = false ∧
    ((draftDatabase none).createChronicle "c" none "s").state.store.chronicles.contains "c" := by
  refine ⟨reachable_draftDatabase none, rfl, rfl, ?_, ?_⟩ <;> decide +kernel

end Database

end ChronicleMeta
