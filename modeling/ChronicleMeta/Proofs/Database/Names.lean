import ChronicleMeta.Proofs.Database.Creation
import ChronicleMeta.Proofs.Naming

/-!
Full names and their parts. A full name is cut at the last separator and put together again, and a
chronicle that is read or created has the parts that its full name is cut into.
-/

namespace ChronicleMeta

namespace Database

variable {db : Database} {k : Identity} {n : String} {x : Chronicle}

/-- The chronicle is the one stored under the full name, with some schema. -/
def Mirrors (db : Database) (n : String) (x : Chronicle) : Prop :=
  ∃ stored, db.store.chronicles.get? n = some stored ∧
    x = .ofFullName db.naming stored.surrogate n stored.description stored.parent x.schema

theorem Traced.mirrors (h : db.Traced) (hx : db.Current k x) : db.Mirrors x.fullName x := by
  obtain ⟨stored, hget, -, -, heq⟩ := hx
  rw [h.tables.chronicles.name_eq _ stored hget] at heq
  exact ⟨stored, hget, heq⟩

/-- A chronicle that is read, from the cache or by way of it, is the one stored under the full name. -/
theorem Traced.mirrors_of_chronicle (h : db.Traced) (hx : (db.chronicle n).result = .ok x) :
    db.Mirrors n x := by
  have hlooked : (db.withCache (db.cache.lookUpName n).2).Traced := ⟨h.tables, h.coherent.lookUpName n⟩
  cases hfound : (db.cache.lookUpName n).1 with
  | some c =>
    simp only [Database.chronicle, hfound, Outcome.ok] at hx
    obtain rfl := Except.ok.inj hx
    rw [Cache.lookUpName_found] at hfound
    obtain ⟨k, hk, hcached⟩ := Option.bind_eq_some_iff.1 hfound
    obtain ⟨c', hcached', rfl⟩ := h.coherent.names n k hk
    obtain rfl : c = c' := Option.some.inj (hcached.symm.trans hcached')
    exact h.mirrors (h.coherent.current k c hcached)
  | none =>
    cases hread : (db.withCache (db.cache.lookUpName n).2).readChronicle n with
    | error e =>
      simp only [Database.chronicle, hfound, hread, whenOk, Outcome.fail] at hx
      cases hx
    | ok c =>
      obtain ⟨stored, k, ks, -, -, -, hc, rfl, hs⟩ := hlooked.of_readChronicle hread
      have hk := Surrogate.identity?_eq_some_iff.2 hc.surrogate_eq
      simp only [Database.chronicle, hfound, hread, whenOk] at hx
      obtain ⟨e, hstore, -⟩ | ⟨cached, cache, hcached, hkept, hstore, -⟩ |
          ⟨shared, c₁, cache, -, hstore, -, -⟩ :=
        hlooked.coherent.store_cases hc hs.1 fun _ _ => hlooked.acquire hs
      · simp only [hstore, Outcome.inState, Outcome.andThen, Outcome.fail] at hx
        cases hx
      · -- the cached chronicle of the same identity is given back in the place of the one read
        have hgiven : (cache.lookUp c.surrogate).1 = some cached := by
          rw [Cache.lookUp_found, hk]
          exact hkept
        simp only [hstore, Outcome.inState, Outcome.andThen, Outcome.ok] at hx
        simp only [withCache, hgiven, Option.getD_some] at hx
        obtain rfl := Except.ok.inj hx
        have hcurrent := hlooked.coherent.current k cached hcached
        rw [hc.fullName_eq hcurrent hlooked.tables.chronicles]
        exact hlooked.mirrors hcurrent
      · simp only [hstore, Outcome.inState, Outcome.andThen, Outcome.ok] at hx
        obtain rfl := Except.ok.inj hx
        obtain ⟨stored, hget, heq⟩ := hlooked.mirrors hc
        exact ⟨stored, hget, by rw [heq]; rfl⟩

/-- A chronicle that is created has its simple name, its full name and its parent from the full name. -/
theorem Traced.of_createChronicle (h : db.Traced) {description : Option String} {schemaName : String}
    (hx : (db.createChronicle n description schemaName).result = .ok x) :
    x.name = (db.naming.split n).2 ∧ x.fullName = n ∧ db.store.ParentOf db.naming n x.parent := by
  obtain ⟨e, hrun⟩ | ⟨c, stored, b, s, hcreates, -, -, -, hrun⟩ :=
    createChronicle_stages db n description schemaName
  · rw [hrun] at hx
    cases hx
  · rw [hrun] at hx
    have hstored := h.grown (h.tables.createChronicle stored).1 (Store.grows_createChronicle db.store stored)
    obtain ⟨c', hget, heq⟩ := hstored.mirrors_of_chronicle hx
    have hplaced : (db.store.createChronicle stored).state.chronicles.get? n = some c := by
      rw [hcreates.store_eq]
      exact SortedMap.get?_insert_self _ _ _
    obtain rfl : c' = c := Option.some.inj (hget.symm.trans hplaced)
    rw [heq]
    exact ⟨rfl, rfl, hcreates.parent⟩

/-- Full names and their parts. Cutting and putting together are inverse, so a path and a valid simple
name make one full name only, and a chronicle with that full name, as one that is created, has them as
its parts. -/
theorem parts_of_names :
    (∀ (naming : Naming) (fullName : String),
      naming.join (naming.split fullName).1 (naming.split fullName).2 = fullName ∧
        naming.separator ∉ (naming.split fullName).2.toList) ∧
    (∀ (naming : Naming) (path : Option String) (name : String), naming.separator ∉ name.toList →
      naming.split (naming.join path name) = (path, name)) ∧
    (∀ (naming : Naming) (path path' : Option String) (name name' : String),
      naming.validate name = .ok () → naming.validate name' = .ok () →
        naming.join path name = naming.join path' name' → path = path' ∧ name = name') ∧
    (∀ (naming : Naming) surrogate path name description parent schema,
      naming.validate name = .ok () →
        let c := Chronicle.ofFullName naming surrogate (naming.join path name) description parent schema
        c.name = name ∧ naming.split c.fullName = (path, name)) ∧
    ∀ (db : Database) path name description schemaName x, db.Reachable →
      db.naming.validate name = .ok () →
      (db.createChronicle (db.naming.join path name) description schemaName).result = .ok x →
        x.name = name ∧ db.naming.split x.fullName = (path, name) ∧
          db.store.ParentOf db.naming x.fullName x.parent := by
  have hcut : ∀ (naming : Naming) (path : Option String) (name : String),
      naming.validate name = .ok () → naming.split (naming.join path name) = (path, name) :=
    fun naming path name h => naming.split_join path (Naming.validate_eq_ok_iff.1 h).2
  refine ⟨fun naming fullName => ⟨naming.join_split fullName, naming.separator_not_mem_split fullName⟩,
    fun naming path name h => naming.split_join path h, ?_, ?_, ?_⟩
  · intro naming path path' name name' h h' hjoin
    have hparts := hcut naming path name h
    rw [hjoin, hcut naming path' name' h'] at hparts
    obtain ⟨rfl, rfl⟩ := Prod.mk.inj hparts
    exact ⟨rfl, rfl⟩
  · intro naming surrogate path name description parent schema h c
    have hparts := hcut naming path name h
    exact ⟨congrArg Prod.snd hparts, hparts⟩
  · intro db path name description schemaName x hreachable h hx
    obtain ⟨hname, hfull, hparent⟩ := hreachable.traced.of_createChronicle hx
    have hparts := hcut db.naming path name h
    rw [hparts] at hname
    rw [hfull]
    exact ⟨hname, hparts, hparent⟩

def rootedDatabase : Database := ((draftDatabase (some 5)).createChronicle "c" none "s").state

theorem parts_of_names_sample :
    rootedDatabase.Reachable ∧ rootedDatabase.naming.validate "d" = .ok () ∧
    ∃ x, (rootedDatabase.createChronicle (rootedDatabase.naming.join (some "c") "d") none "s").result =
        .ok x ∧
      x.name = "d" ∧ rootedDatabase.naming.split x.fullName = (some "c", "d") ∧
      rootedDatabase.store.ParentOf rootedDatabase.naming x.fullName x.parent := by
  have hreachable : rootedDatabase.Reachable :=
    .served (reachable_draftDatabase (some 5)) (.createChronicle "c" none "s")
  have hvalid : rootedDatabase.naming.validate "d" = .ok () := by decide
  obtain ⟨-, -, -, -, hcreated⟩ := parts_of_names
  exact ⟨hreachable, hvalid, _, rfl, hcreated _ (some "c") "d" none "s" _ hreachable hvalid rfl⟩

end Database

end ChronicleMeta
