import ChronicleMeta.Proofs.Database.Frame
import ChronicleMeta.Proofs.Store.Sound

/-! What the creation and the deletion of a chronicle ask for, and all that they do to the store. -/

namespace ChronicleMeta

/-- What a chronicle of the full name has as its parent: none at the top, and else the chronicle that
is stored under the path of its parent. -/
def Store.ParentOf (s : Store) (naming : Naming) (fullName : String) (parent : Option Surrogate) : Prop :=
  match (naming.split fullName).1 with
  | none => parent = none
  | some path => ∃ c, s.chronicles.get? path = some c ∧ parent = some c.surrogate

namespace Database

variable {db : Database} {fullName name : String} {description : Option String}
  {stored : StoredChronicle}

theorem schema?_of_loadSchema {b : Blueprint} (h : db.loadSchema name = .ok b) :
    db.store.schemas.get? name = some b := by
  unfold loadSchema Store.schema? at h
  split at h
  next c hc => rw [hc, Except.ok.inj h]
  next => cases h

theorem get?_of_loadChronicle {c : StoredChronicle} (h : db.loadChronicle name = .ok c) :
    db.store.chronicles.get? name = some c := by
  unfold loadChronicle at h
  split at h
  next c' hc => rw [hc, Except.ok.inj h]
  next => cases h

/-- A chronicle that may be created has a valid simple name, the parent that its full name says, and a
schema that is stored and can be resolved. -/
theorem of_creatableChronicle (h : db.creatableChronicle fullName description name = .ok stored) :
    ∃ parent b, db.naming.validate (db.naming.split fullName).2 = .ok () ∧
      db.store.ParentOf db.naming fullName parent ∧ db.store.schemas.get? name = some b ∧
      (∃ s, b.resolve db.store.source db.resolution = .ok s) ∧ stored = {
        surrogate := .pending db.store.database .chronicle
        fullName, description, parent
        schema := b.surrogate } := by
  have hrest : ∀ parent, (do
      let b ← db.loadSchema name
      db.check .read b.surrogate
      let _ ← b.resolve db.store.source db.resolution
      return {
        surrogate := .pending db.store.database .chronicle
        fullName, description, parent
        schema := b.surrogate } : Except Failure StoredChronicle) = .ok stored →
      ∃ b, db.store.schemas.get? name = some b ∧
        (∃ s, b.resolve db.store.source db.resolution = .ok s) ∧ stored = {
        surrogate := .pending db.store.database .chronicle
        fullName, description, parent
        schema := b.surrogate } := by
    intro parent h
    obtain ⟨b, hb, h⟩ := bind_eq_ok_iff.1 h
    obtain ⟨_, -, h⟩ := bind_eq_ok_iff.1 h
    obtain ⟨s, hs, h⟩ := bind_eq_ok_iff.1 h
    obtain rfl := pure_eq_ok_iff.1 h
    exact ⟨b, schema?_of_loadSchema (mapError_eq_ok_iff.1 hb), ⟨s, hs⟩, rfl⟩
  unfold creatableChronicle at h
  unfold Store.ParentOf
  generalize db.naming.split fullName = parts at h ⊢
  obtain ⟨path, simple⟩ := parts
  obtain ⟨_, hvalid, h⟩ := bind_eq_ok_iff.1 h
  have hvalid := mapError_eq_ok_iff.1 hvalid
  cases path with
  | none =>
    obtain ⟨parent, hparent, h⟩ := bind_eq_ok_iff.1 h
    obtain ⟨b, hb, hresolve, hstored⟩ := hrest parent h
    exact ⟨parent, b, hvalid, (pure_eq_ok_iff.1 hparent).symm, hb, hresolve, hstored⟩
  | some path =>
    obtain ⟨c, hc, h⟩ := bind_eq_ok_iff.1 h
    obtain ⟨_, -, h⟩ := bind_eq_ok_iff.1 h
    obtain ⟨parent, hparent, h⟩ := bind_eq_ok_iff.1 h
    obtain ⟨b, hb, hresolve, hstored⟩ := hrest parent h
    have hget := get?_of_loadChronicle (mapError_eq_ok_iff.1 hc)
    exact ⟨parent, b, hvalid, ⟨c, hget, (pure_eq_ok_iff.1 hparent).symm⟩, hb, hresolve,
      hstored⟩

/-- All that storing the new chronicle does: nothing, or to store it with the next id. -/
theorem createChronicle_cases (h : db.creatableChronicle fullName description name = .ok stored) :
    (db.store.createChronicle stored).state = db.store ∨
      ∃ c : StoredChronicle, c.fullName = fullName ∧
        db.naming.validate (db.naming.split fullName).2 = .ok () ∧
        db.store.ParentOf db.naming fullName c.parent ∧
        c.surrogate = .committed db.store.database .chronicle db.store.nextId ∧
        db.store.chronicles.get? fullName = none ∧ db.store.lastId.toNat < db.store.nextId.toNat ∧
        (db.store.createChronicle stored).state = { db.store with
          lastId := db.store.nextId
          chronicles := db.store.chronicles.insert fullName c } := by
  obtain ⟨parent, b, hvalid, hparent, -, -, rfl⟩ := of_creatableChronicle h
  obtain ⟨e, hs⟩ | ⟨hfree, hlt, hs⟩ := Store.createChronicle_cases db.store _
  · exact .inl (congrArg Outcome.state hs)
  · exact .inr ⟨_, rfl, hvalid, hparent, rfl, hfree, hlt, congrArg Outcome.state hs⟩

/-- Deleting a chronicle fails and leaves the store as it is, or it removes the one of the name. -/
theorem deleteChronicle_cases (db : Database) (fullName : String)
    (h : Registered db.store.database .chronicle db.store.lastId StoredChronicle.fullName
      StoredChronicle.surrogate db.store.chronicles) :
    (∃ e, (db.deleteChronicle fullName).result = .error e ∧
      (db.deleteChronicle fullName).state.store = db.store) ∨
    (db.deleteChronicle fullName).result = .ok () ∧ db.store.chronicles.contains fullName ∧
      (db.deleteChronicle fullName).state.store =
        { db.store with chronicles := db.store.chronicles.erase fullName } := by
  unfold deleteChronicle
  cases hdeletable : db.deletableChronicle fullName with
  | error e => exact .inl ⟨_, rfl, rfl⟩
  | ok stored =>
    obtain ⟨c, hload, hdeletable⟩ := bind_eq_ok_iff.1 hdeletable
    obtain ⟨_, -, hdeletable⟩ := bind_eq_ok_iff.1 hdeletable
    obtain rfl := pure_eq_ok_iff.1 hdeletable
    have hget := get?_of_loadChronicle hload
    have hdelete := Store.deleteChronicle_eq_ok h hget
    -- the store is reached only if the cache gives the chronicle back
    unfold whenOk Outcome.andThen
    dsimp only [Failure.ofError, Except.mapError, Outcome.inState]
    cases (db.cache.clearChronicle c.surrogate).result with
    | error e => exact .inl ⟨e, rfl, rfl⟩
    | ok dropped =>
      exact .inr ⟨congrArg (fun r => r.result.mapError Failure.error) hdelete,
        SortedMap.contains_iff.2 ⟨c, hget⟩, congrArg Outcome.state hdelete⟩

end Database

end ChronicleMeta
