import ChronicleMeta.Proofs.Database.Reading

/-! What every request to a database keeps, whether it succeeds or fails. -/

namespace ChronicleMeta.Database

variable {α β : Type} {db db' : Database}

/-- The database is sound, and names chronicles and resolves schemas like the one before. -/
structure Follows (db db' : Database) : Prop where
  sound : Sound db'
  naming_eq : db'.naming = db.naming
  resolution_eq : db'.resolution = db.resolution

theorem Sound.follows (h : Sound db) : db.Follows db := ⟨h, rfl, rfl⟩

theorem Follows.trans {db'' : Database} (h : db.Follows db') (h' : db'.Follows db'') :
    db.Follows db'' where
  sound := h'.sound
  naming_eq := h'.naming_eq.trans h.naming_eq
  resolution_eq := h'.resolution_eq.trans h.resolution_eq

theorem Sound.whenOk (h : Sound db) {checked : Except Failure α}
    {act : α → Outcome Failure Database β}
    (hact : ∀ a, checked = .ok a → db.Follows (act a).state) :
    db.Follows (db.whenOk checked act).state := by
  cases checked with
  | error e => exact h.follows
  | ok a => exact hact a rfl

theorem Follows.andThen {r : Outcome Failure Database α}
    {act : α → Database → Outcome Failure Database β} (h : db.Follows r.state)
    (hact : ∀ a, r.state.Follows (act a r.state).state) : db.Follows (r.andThen act).state := by
  unfold Outcome.andThen
  cases r.result with
  | error e => exact h
  | ok a => exact h.trans (hact a)

/-- Objects that are added to the store leave what is cached as it is. -/
theorem Sound.onStore (h : Sound db) (act : Store → Edited Store α)
    (hact : (act db.store).state.Sound ∧ db.store.Grows (act db.store).state) :
    db.Follows (db.onStore act).state :=
  ⟨h.grown hact.1 hact.2, rfl, rfl⟩

/-- With nothing cached the store may change in any way. -/
theorem Sound.clearCache_onStore (h : Sound db) (act : Store → Edited Store α)
    (hact : (act db.store).state.Sound) : db.Follows (db.clearCache.onStore act).state :=
  ⟨h.cleared hact, rfl, rfl⟩

theorem Sound.updateSchema (h : Sound db) {b : Blueprint} (hb : ∀ p ∈ b.properties, db.store.Knows p) :
    db.Follows (db.updateSchema b).state := by
  refine h.whenOk fun _ _ => h.whenOk fun _ _ => ?_
  split_ifs
  · have hcreate := h.onStore (·.createSchema b) (h.store.createSchema hb)
    exact hcreate.andThen fun id => hcreate.sound.whenOk fun _ _ => hcreate.sound.follows
  · have hupdate := h.clearCache_onStore (·.updateSchema b) (h.store.updateSchema hb)
    exact hupdate.andThen fun _ => hupdate.sound.follows

theorem Sound.deleteSchema (h : Sound db) (name : String) :
    db.Follows (db.deleteSchema name).state :=
  h.whenOk fun _ _ => h.clearCache_onStore _ (h.store.deleteSchema _)

theorem Sound.createProperty (h : Sound db) (p : Property) :
    db.Follows (db.createProperty p).state := by
  have hcreate := h.onStore (·.createProperty p) (h.store.createProperty p)
  refine h.whenOk fun _ _ => hcreate.andThen fun id => ?_
  exact hcreate.sound.whenOk fun _ _ => hcreate.sound.follows

theorem Sound.updateProperty (h : Sound db) (p : Property) :
    db.Follows (db.updateProperty p).state :=
  h.whenOk fun _ _ => h.clearCache_onStore _ (h.store.updateProperty p)

/-- No stored schema refers to a property that may be deleted. -/
theorem of_deletableProperty {name : String} {p : Property} (h : db.deletableProperty name = .ok p) :
    ∀ n b, db.store.schemas.get? n = some b → ∀ q ∈ b.properties,
      q.surrogate.agrees p.surrogate = false := by
  intro n b hb q hq
  obtain ⟨p', -, h⟩ := bind_eq_ok_iff.1 h
  split_ifs at h
  · cases h
  · obtain ⟨_, -, h⟩ := bind_eq_ok_iff.1 h
    cases huser : db.user? p' with
    | some schema =>
      simp only [huser] at h
      cases h
    | none =>
      simp only [huser] at h
      obtain rfl := pure_eq_ok_iff.1 h
      have hnone := List.find?_eq_none.1 (Option.map_eq_none_iff.1 huser) (n, b)
        (SortedMap.mem_toList_iff.2 hb)
      simp only [List.any_eq_true, not_exists, not_and] at hnone
      exact Bool.eq_false_iff.2 (hnone q hq)

theorem Sound.deleteProperty (h : Sound db) (name : String) :
    db.Follows (db.deleteProperty name).state := by
  refine h.whenOk fun p hp => h.clearCache_onStore _ (h.store.deleteProperty ?_)
  exact of_deletableProperty (mapError_eq_ok_iff.1 hp)

theorem Sound.readingChronicle (h : Sound db) (n : String) : db.Follows (db.chronicle n).state := by
  obtain ⟨cache, hstate, h'⟩ := (h.chronicle n).2
  rw [hstate]
  exact ⟨h', rfl, rfl⟩

theorem Sound.createChronicle (h : Sound db) (fullName : String) (description : Option String)
    (schemaName : String) : db.Follows (db.createChronicle fullName description schemaName).state := by
  refine h.whenOk fun stored _ => ?_
  have hcreate := h.onStore (·.createChronicle stored) (h.store.createChronicle stored)
  exact hcreate.andThen fun _ => hcreate.sound.readingChronicle fullName

theorem of_deletableChronicle {n : String} {stored : StoredChronicle}
    (h : db.deletableChronicle n = .ok stored) : db.store.chronicles.get? n = some stored := by
  obtain ⟨stored', hload, h⟩ := bind_eq_ok_iff.1 h
  obtain ⟨_, -, h⟩ := bind_eq_ok_iff.1 h
  obtain rfl := pure_eq_ok_iff.1 h
  unfold loadChronicle at hload
  split at hload
  next c hc => rw [hc, Except.ok.inj hload]
  next => cases hload

/-- A chronicle can be dropped from the cache. -/
theorem Sound.clearChronicle (h : Sound db) (s : Surrogate) :
    ∃ b cache, db.cache.clearChronicle s = .ok cache b ∧ Sound (db.withCache cache) ∧
      ∀ k, s.identity? = some k → cache.chronicles.get? k = none := by
  obtain ⟨b, cache, hclear, hcoherent, hnone⟩ := h.coherent.clearChronicle s
  exact ⟨b, cache, hclear, hcoherent.sound h.store h.granted, hnone⟩

/-- A stored chronicle that is not cached can be deleted. -/
theorem Sound.deleted (h : Sound db) {n : String} {stored : StoredChronicle}
    (hstored : db.store.chronicles.get? n = some stored)
    (hcache : ∀ k, stored.surrogate.identity? = some k → db.cache.chronicles.get? k = none) :
    db.Follows (db.onStore (·.deleteChronicle stored.surrogate)).state := by
  have hdelete := Store.deleteChronicle_eq_ok h.store.chronicles hstored
  have hsound := h.store.deleteChronicle stored.surrogate
  have hstate : (db.onStore (·.deleteChronicle stored.surrogate)).state =
      db.withStore { db.store with chronicles := db.store.chronicles.erase n } := by
    rw [Database.onStore, hdelete]
    rfl
  rw [hdelete] at hsound
  rw [hstate]
  exact ⟨(h.coherent.deleted hstored hcache).sound hsound h.granted, rfl, rfl⟩

theorem Sound.deleteChronicle (h : Sound db) (fullName : String) :
    db.Follows (db.deleteChronicle fullName).state := by
  refine h.whenOk fun stored hstored => ?_
  have hstored := of_deletableChronicle (mapError_eq_ok_iff.1 hstored)
  obtain ⟨b, cache, hclear, h', hnone⟩ := h.clearChronicle stored.surrogate
  rw [hclear]
  have hfollows : db.Follows (db.withCache cache) := ⟨h', rfl, rfl⟩
  exact hfollows.trans (h'.deleted hstored hnone)

/-- Every request leaves a sound database. -/
theorem Sound.serve (h : Sound db) {r : Request} (hr : db.Admits r) :
    db.Follows (db.serve r).state := by
  cases r with
  | updateSchema b =>
    exact h.updateSchema fun p hp => (hr p hp).imp_right fun hfind =>
      (h.store.refers.findProperty?_eq_some_iff.1 hfind).1
  | deleteSchema name => exact h.deleteSchema name
  | createProperty p => exact h.createProperty p
  | updateProperty p => exact h.updateProperty p
  | deleteProperty name => exact h.deleteProperty name
  | createChronicle fullName description schemaName =>
    exact h.createChronicle fullName description schemaName
  | deleteChronicle fullName => exact h.deleteChronicle fullName
  | chronicle fullName => exact h.readingChronicle fullName
  | property name => exact h.follows

end ChronicleMeta.Database
