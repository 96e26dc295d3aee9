import ChronicleMeta.Proofs.Database.Sound

/-!
What is read through the cache of a database. A sound database gives what reading its store gives,
and stays sound; only the cache changes.
-/

namespace ChronicleMeta

/-- The chronicle without a record of which copy of its schema it holds. -/
def Chronicle.unshared (c : Chronicle) : Chronicle :=
  { c with schema := { schema := c.schema.schema } }

namespace Store

/-- The stored chronicle of the full name, with its schema resolved from the stored ones. -/
def readChronicle (s : Store) (naming : Naming) (config : ResolutionConfig) (fullName : String) :
    Except Failure Chronicle :=
  match s.chronicles.get? fullName with
  | none => .error (.error (.chronicleNotFound fullName))
  | some stored => match s.loadSchema stored.schema with
    | none => .error (.error (.schemaNotFound stored.schema.text))
    | some b => (b.resolve s.source config).map fun schema =>
      .ofFullName naming stored.surrogate stored.fullName stored.description stored.parent { schema }

/-- The built-in property of the name, or else the stored one. -/
def readProperty (s : Store) (name : String) : Except Error Property :=
  match Builtin.property? name with
  | some p => .ok p
  | none => match s.properties.get? name with
    | some p => .ok p
    | none => .error (.propertyNotFound name)

end Store

namespace Database

variable {A : Identity → Schema → Prop} {B : Identity → Property → Prop} {db : Database}
  {k ks : Identity} {c : Chronicle} {s : Schema}

/-- The stored chronicle of the full name, without the cache. -/
def reread (db : Database) (fullName : String) : Except Failure Chronicle :=
  db.store.readChronicle db.naming db.resolution fullName

theorem Resolves.surrogate_eq (hs : db.Resolves ks s) : s.surrogate = .ofIdentity ks := by
  obtain ⟨b, hb, hresolve⟩ := hs
  have hagrees : b.surrogate.agrees (.ofIdentity ks) := by simpa using List.find?_some hb
  rw [(Blueprint.resolve_eq_ok hresolve).1, Surrogate.agrees_ofIdentity_iff.1 hagrees]

theorem Resolves.frozen (hs : db.Resolves ks s) : s.definitions.Frozen := by
  obtain ⟨b, -, hresolve⟩ := hs
  exact (Blueprint.resolve_eq_ok hresolve).2.1

theorem Current.surrogate_eq (hc : db.Current k c) : c.surrogate = .ofIdentity k := by
  obtain ⟨stored, -, hk, -, hc⟩ := hc
  rw [hc]
  exact Surrogate.identity?_eq_some_iff.1 hk

/-- A chronicle that is current, with a schema that is, is what the store gives. -/
theorem Current.reread_eq_ok (hc : db.Current k c) (hs : db.Resolves ks c.schema.schema) :
    db.reread c.fullName = .ok c.unshared := by
  have hschema := hs.surrogate_eq
  obtain ⟨stored, hget, -, hstored, hc⟩ := hc
  obtain ⟨b, hb, hresolve⟩ := hs
  have hb : db.store.loadSchema stored.schema = some b := by rw [hstored, hschema, hb]
  unfold reread Store.readChronicle
  simp only [hget, hb, hresolve, Except.map]
  rw [hc]
  rfl

theorem Sound.reread_of_cached (h : Sound db) (hc : db.cache.chronicles.get? k = some c) :
    db.reread c.fullName = .ok c.unshared := by
  have hmem : c.schema ∈ db.cache.users :=
    List.mem_map.2 ⟨(k, c), Recency.mem_of_get? hc, rfl⟩
  obtain ⟨ks, -, hs⟩ := h.backed.schemas_of_mem hmem
  exact (h.current k c hc).reread_eq_ok hs

/-- Two chronicles that are current have one name if they have one identity. -/
theorem Current.fullName_eq (hc : db.Current k c) {c' : Chronicle} (hc' : db.Current k c')
    (h : Registered db.store.database .chronicle db.store.lastId StoredChronicle.fullName
      StoredChronicle.surrogate db.store.chronicles) : c.fullName = c'.fullName := by
  obtain ⟨stored, hget, hk, -⟩ := hc
  obtain ⟨stored', hget', hk', -⟩ := hc'
  refine h.unique _ _ _ _ hget hget' ?_
  rw [Surrogate.identity?_eq_some_iff.1 hk, Surrogate.identity?_eq_some_iff.1 hk']

/-- Sharing does not change the properties of a schema that is resolved from the store. -/
theorem Sound.stable (h : Sound db) (hs : db.Resolves ks s) :
    ∀ p ∈ s.properties, Cache.Stable db.store.Holds p := by
  intro p hp
  obtain ⟨b, hb, hresolve⟩ := hs
  have hknows : db.store.Knows p := Store.Mentions.resolve h.store.knows hb hresolve p hp
  rcases hknows with hbuiltin | hstored
  · have hname := Builtin.property?_name hbuiltin
    exact .inl ⟨Property.isPinned_of_property? hname, hname⟩
  · obtain ⟨id, hid, -⟩ := h.store.properties.owned p.name p hstored
    have hforeign : p.isBuiltin = false := by
      rw [Property.isBuiltin, hid]
      exact h.store.foreign
    refine .inr ⟨by simp [Property.isPinned, hforeign], ⟨db.store.database, .property, id⟩, ?_⟩
    have hk : p.surrogate.identity? = some ⟨db.store.database, .property, id⟩ := by
      rw [hid]
      rfl
    refine ⟨hk, ⟨hk, hstored⟩, fun q hq => ?_⟩
    obtain ⟨hkq, hget⟩ := hq
    have heq : q.surrogate = p.surrogate := by
      rw [Surrogate.identity?_eq_some_iff.1 hk, Surrogate.identity?_eq_some_iff.1 hkq]
    have hname := h.store.properties.unique _ _ _ _ hget hstored heq
    rw [hname, hstored] at hget
    exact (Option.some.inj hget).symm

/-- A stored chronicle with a copy of its schema is current. -/
theorem current_ofFullName (h : Registered db.store.database .chronicle db.store.lastId
      StoredChronicle.fullName StoredChronicle.surrogate db.store.chronicles)
    {n : String} {stored : StoredChronicle} (hget : db.store.chronicles.get? n = some stored)
    {shared : SharedSchema} (hschema : stored.schema = shared.schema.surrogate) :
    ∃ k, stored.surrogate.identity? = some k ∧ db.Current k (.ofFullName db.naming stored.surrogate
      stored.fullName stored.description stored.parent shared) := by
  obtain ⟨id, hid, -⟩ := h.owned n stored hget
  have hname : stored.fullName = n := h.name_eq n stored hget
  have hk : stored.surrogate.identity? = some ⟨db.store.database, .chronicle, id⟩ := by
    rw [hid]
    rfl
  refine ⟨_, hk, stored, ?_, hk, hschema, rfl⟩
  rw [Chronicle.ofFullName, hname, hget]

/-- A chronicle that is not in the cache is read as if nothing were. -/
theorem Sound.readChronicle_cases (h : Sound db) (n : String) :
    (∃ e, db.readChronicle n = .error e ∧ db.reread n = .error e) ∨
      ∃ k ks c, db.readChronicle n = .ok c ∧ c.fullName = n ∧ db.Current k c ∧
        db.Resolves ks c.schema.schema := by
  cases hget : db.store.chronicles.get? n with
  | none =>
    refine .inl ⟨.error (.chronicleNotFound n), ?_, ?_⟩
    · simp only [Database.readChronicle, loadChronicle, hget, lift_error]
      rfl
    · simp only [reread, Store.readChronicle, hget]
  | some stored =>
    have hcheck : db.check .read stored.surrogate = .ok () := by
      simp [check, Permissions.check, h.granted, Permissions.all]
    have hname : stored.fullName = n := h.store.chronicles.name_eq n stored hget
    simp only [Database.readChronicle, loadChronicle, hget, lift_ok, ok_bind, hcheck]
    cases hcached : db.cache.schema? stored.schema with
    | some shared =>
      obtain ⟨e, he, rfl⟩ := Option.map_eq_some_iff.1 hcached
      obtain ⟨ks, hks, he⟩ := Option.bind_eq_some_iff.1 he
      have hs := h.backed.schemas ks e he
      have hschema := (Surrogate.identity?_eq_some_iff.1 hks).trans hs.surrogate_eq.symm
      obtain ⟨k, -, hc⟩ := current_ofFullName h.store.chronicles hget hschema
      exact .inr ⟨k, ks, _, rfl, hname, hc, hs⟩
    | none =>
      cases hb : db.store.loadSchema stored.schema with
      | none =>
        refine .inl ⟨_, rfl, ?_⟩
        simp only [reread, Store.readChronicle, hget, hb]
      | some b =>
        cases hresolve : b.resolve db.store.source db.resolution with
        | error e =>
          refine .inl ⟨e, ?_, ?_⟩
          · simp only [hresolve, error_bind]
          · simp only [reread, Store.readChronicle, hget, hb, hresolve, Except.map]
        | ok schema =>
          obtain ⟨-, ks, hks⟩ := Surrogate.agrees_iff.1 (h.store.loadSchema_eq_some_iff.1 hb).2
          have hks := Surrogate.identity?_eq_some_iff.1 hks
          have hs : db.Resolves ks schema := ⟨b, hks ▸ hb, hresolve⟩
          have hschema : stored.schema = ({ schema } : SharedSchema).schema.surrogate :=
            hks.trans hs.surrogate_eq.symm
          obtain ⟨k, -, hc⟩ := current_ofFullName h.store.chronicles hget hschema
          refine .inr ⟨k, ks, _, ?_, hname, hc, hs⟩
          simp only [hresolve, ok_bind]
          rfl

/-- A chronicle stays current with another copy of its schema. -/
theorem Current.withSchema (hc : db.Current k c) {shared : SharedSchema}
    (hsame : shared.schema.surrogate = c.schema.schema.surrogate) :
    db.Current k { c with schema := shared } := by
  obtain ⟨stored, hget, hid, hschema, heq⟩ := hc
  refine ⟨stored, hget, hid, hschema.trans hsame.symm, ?_⟩
  rw [heq]
  rfl

/-- A chronicle that is current is cached already, or it is stored in the cache unless its schema cannot
be taken up. -/
theorem Coherent.store_cases (h : db.Coherent A B) (hc : db.Current k c)
    (hks : c.schema.schema.surrogate.identity? = some ks)
    (hacquired : ∀ shared c₁, db.cache.acquireSchema ks c.schema.schema = .ok (shared, c₁) →
      Cache.Backed A B c₁ (shared :: db.cache.users)) :
    (∃ e, db.cache.store c = .fail db.cache (.error e) ∧
      db.cache.acquireSchema ks c.schema.schema = .error e) ∨
    (∃ cached cache, db.cache.chronicles.get? k = some cached ∧
      cache.chronicles.get? k = some cached ∧ db.cache.store c = .ok cache none ∧
      (db.withCache cache).Coherent A B) ∨
    ∃ shared c₁ cache, db.cache.acquireSchema ks c.schema.schema = .ok (shared, c₁) ∧
      db.cache.store c = .ok cache (some { c with schema := shared }) ∧ A ks shared.schema ∧
      (db.withCache cache).Coherent A B := by
  have hk := Surrogate.identity?_eq_some_iff.2 hc.surrogate_eq
  have hacquired' : ∀ j shared c₁, c.schema.schema.surrogate.identity? = some j →
      db.cache.acquireSchema j c.schema.schema = .ok (shared, c₁) →
        Cache.Backed A B c₁ (shared :: db.cache.users) := by
    intro j shared c₁ hj ha
    obtain rfl := Option.some.inj (hks.symm.trans hj)
    exact hacquired shared c₁ ha
  rcases Cache.account_backed.store h.unique c hacquired' with
    ⟨e, hstore, hfail⟩ | ⟨j, cached, hj, hcached, -, hstore⟩ |
      ⟨j, js, shared, c₁, cache, hj, hjs, ha, hstore, hbacked, hchron, -, -, hnames, -⟩
  · exact .inl ⟨e, hstore, hfail k ks hk hks⟩
  · obtain rfl : k = j := Option.some.inj (hk.symm.trans hj)
    have hp := (Recency.perm_promote h.unique k).symm
    have hfound := (Recency.get?_perm h.unique hp k).trans hcached
    exact .inr (.inl ⟨cached, _, hcached, hfound, hstore, h.reordered hp db.cache.stats⟩)
  · obtain rfl : k = j := Option.some.inj (hk.symm.trans hj)
    obtain rfl : ks = js := Option.some.inj (hks.symm.trans hjs)
    have htaken := hacquired shared c₁ ha
    obtain ⟨m, hg⟩ := Cache.get?_of_acquireSchema ha
    have hsurrogate := (Surrogate.identity?_eq_some_iff.1 (htaken.tallied.mem_users hg).2.2).trans
      (Surrogate.identity?_eq_some_iff.1 hks).symm
    have hcurrent := hc.withSchema hsurrogate
    exact .inr (.inr ⟨shared, c₁, cache, ha, hstore, htaken.schemas ks _ hg,
      h.placed hcurrent hbacked hchron hnames⟩)

/-- Here its schema can be taken up. -/
theorem Sound.store_cases (h : Sound db) (hc : db.Current k c)
    (hs : db.Resolves ks c.schema.schema) :
    (∃ cache cached, db.cache.store c = .ok cache none ∧ cache.chronicles.get? k = some cached ∧
      Sound (db.withCache cache)) ∨
    ∃ cache stored, db.cache.store c = .ok cache (some stored) ∧ stored.unshared = c.unshared ∧
      Sound (db.withCache cache) := by
  have hks := Surrogate.identity?_eq_some_iff.2 hs.surrogate_eq
  obtain ⟨shared, c₁, hacquire, -, hbacked⟩ := h.backed.acquire hks hs hs.frozen (h.stable hs)
  obtain ⟨e, -, hfail⟩ | ⟨cached, cache, -, hfound, hstore, h'⟩ |
      ⟨shared', -, cache, -, hstore, hshared, h'⟩ := by
    refine h.coherent.store_cases hc hks fun s' c₂ hacq => ?_
    obtain ⟨rfl, rfl⟩ := Prod.mk.inj (Except.ok.inj (hacquire.symm.trans hacq))
    exact hbacked
  · cases hacquire.symm.trans hfail
  · exact .inl ⟨cache, cached, hstore, hfound, h'.sound h.store h.granted⟩
  · have hsame : shared'.schema = c.schema.schema := hshared.unique hs
    refine .inr ⟨cache, _, hstore, ?_, h'.sound h.store h.granted⟩
    rw [Chronicle.unshared, Chronicle.unshared, hsame]

/-- A chronicle that is not found in the cache is read as if nothing were cached, and stored there. -/
private theorem Sound.chronicle_of_miss {n : String} (hmiss : (db.cache.lookUpName n).1 = none)
    (h : Sound (db.withCache (db.cache.lookUpName n).2)) :
    (db.chronicle n).result.map Chronicle.unshared = db.reread n ∧
      ∃ cache, (db.chronicle n).state = db.withCache cache ∧ Sound (db.withCache cache) := by
  obtain ⟨e, hread, hreread⟩ | ⟨k, ks, c, hread, rfl, hc, hs⟩ := h.readChronicle_cases n
  · have hrun : db.chronicle n = .fail (db.withCache (db.cache.lookUpName n).2) e := by
      simp only [Database.chronicle, hmiss, hread, whenOk]
    rw [hrun]
    exact ⟨hreread.symm, _, rfl, h⟩
  · have hreread : db.reread c.fullName = .ok c.unshared := hc.reread_eq_ok hs
    rcases h.store_cases hc hs with
      ⟨cache, cached, hstore, hcached, h'⟩ | ⟨cache, stored, hstore, hsame, h'⟩
    · have hfound : (cache.lookUp c.surrogate).1 = some cached := by
        rw [Cache.lookUp_found, Surrogate.identity?_eq_some_iff.2 hc.surrogate_eq]
        exact hcached
      have hrun : db.chronicle c.fullName = .ok (db.withCache (cache.lookUp c.surrogate).2) cached := by
        simp only [Database.chronicle, hmiss, hread, whenOk, hstore, Outcome.inState, Outcome.andThen,
          Outcome.ok]
        simp only [withCache, hfound, Option.getD_some]
      have hname := hc.fullName_eq (h'.current k cached hcached) h.store.chronicles
      have hcached_read := h'.reread_of_cached hcached
      rw [← hname] at hcached_read
      have hagain : Sound (db.withCache (cache.lookUp c.surrogate).2) :=
        (h'.coherent.lookUp c.surrogate).sound h'.store h'.granted
      rw [hrun]
      exact ⟨hcached_read.symm, _, rfl, hagain⟩
    · have hrun : db.chronicle c.fullName = .ok (db.withCache cache) stored := by
        simp only [Database.chronicle, hmiss, hread, whenOk, hstore, Outcome.inState, Outcome.andThen,
          Outcome.ok]
        rfl
      rw [hrun, hreread, ← hsame]
      exact ⟨rfl, cache, rfl, h'⟩

/-- A chronicle is read as if nothing were cached, and only the cache changes. -/
theorem Sound.chronicle (h : Sound db) (n : String) :
    (db.chronicle n).result.map Chronicle.unshared = db.reread n ∧
      ∃ cache, (db.chronicle n).state = db.withCache cache ∧ Sound (db.withCache cache) := by
  have h₁ : Sound (db.withCache (db.cache.lookUpName n).2) :=
    (h.coherent.lookUpName n).sound h.store h.granted
  cases hfound : (db.cache.lookUpName n).1 with
  | none => exact h₁.chronicle_of_miss hfound
  | some c =>
    have hrun : db.chronicle n = .ok (db.withCache (db.cache.lookUpName n).2) c := by
      simp only [Database.chronicle, hfound]
    rw [Cache.lookUpName_found] at hfound
    obtain ⟨k, hk, hcached⟩ := Option.bind_eq_some_iff.1 hfound
    obtain ⟨c', hcached', rfl⟩ := h.names n k hk
    obtain rfl : c = c' := Option.some.inj (hcached.symm.trans hcached')
    rw [hrun, h.reread_of_cached hcached]
    exact ⟨rfl, _, rfl, h₁⟩

/-- Each cached property is the one that is stored under its name. -/
def CachesStored (db : Database) : Prop :=
  ∀ k e, db.cache.properties.get? k = some e → db.store.properties.get? e.value.name = some e.value

theorem cachesStored_of_uncached (h : db.cache.properties = ∅) : db.CachesStored := by
  intro k e he
  simp [h] at he

theorem Sound.cachesStored (h : Sound db) : db.CachesStored :=
  fun k e he => (h.backed.properties k e he).2

theorem CachesStored.grown (h : db.CachesStored) {s : Store} (hs : db.store.Grows s) :
    (db.withStore s).CachesStored :=
  fun k e he => hs.properties _ _ (h k e he)

/-- A property is read as if nothing were cached. -/
theorem CachesStored.property_eq (h : db.CachesStored) (n : String) :
    db.property n = db.store.readProperty n := by
  unfold Database.property Store.readProperty Cache.property?
  cases Builtin.property? n with
  | some p => rfl
  | none =>
    cases hfound : db.cache.properties.findValue? (·.value.name = n) with
    | none => rfl
    | some e =>
      obtain ⟨k, hk⟩ := SortedMap.mem_values_iff.1 (List.mem_of_find?_eq_some hfound)
      have hname : e.value.name = n := by simpa using List.find?_some hfound
      have hstored := h k e hk
      rw [hname] at hstored
      simp only [Option.map_some, hstored]

theorem Sound.property_eq (h : Sound db) (n : String) : db.property n = db.store.readProperty n :=
  h.cachesStored.property_eq n

end Database

end ChronicleMeta
