import ChronicleMeta.Proofs.Cache.Providing
import ChronicleMeta.Proofs.Chain
import ChronicleMeta.Proofs.Database.Frame
import ChronicleMeta.Proofs.Store.Properties
import ChronicleMeta.Proofs.Store.Sealed

/-!
What is true of every property that a database gives: what is true of the built-in ones, of the stored
ones and of those that the stored schemas refer to. The cache can give no other, since it takes up only
schemas that are resolved from stored ones.
-/

namespace ChronicleMeta.Database

variable {P : Property → Prop} {db : Database}

/-- A chronicle is read with a schema that the cache provides or that is made of stored ones. -/
theorem provided_of_readChronicle (hstored : db.store.Mentions P) (hcache : db.cache.Provides P)
    {n : String} {c : Chronicle} (h : db.readChronicle n = .ok c) :
    Cache.Provided P c.schema.schema := by
  obtain ⟨stored, -, h⟩ := bind_eq_ok_iff.1 h
  obtain ⟨_, -, h⟩ := bind_eq_ok_iff.1 h
  dsimp only at h
  split at h
  next shared hshared =>
    obtain rfl := pure_eq_ok_iff.1 h
    exact hcache.schema? hshared
  next =>
    split at h
    next => cases h
    next b hb =>
      obtain ⟨s, hs, h⟩ := bind_eq_ok_iff.1 h
      obtain rfl := pure_eq_ok_iff.1 h
      exact ⟨(Blueprint.resolve_eq_ok hs).2.1, hstored.resolve hb hs⟩

theorem provides_chronicle (hbuiltin : ∀ p ∈ Builtin.properties, P p) (hstored : db.store.Mentions P)
    (hcache : db.cache.Provides P) (n : String) : (db.chronicle n).state.cache.Provides P := by
  have hlooked : (db.cache.lookUpName n).2.Provides P :=
    hcache.serve hbuiltin (r := .lookUpName n) fun _ hr => by cases hr
  unfold Database.chronicle
  dsimp only
  split
  · exact hlooked
  · cases hread : (db.withCache (db.cache.lookUpName n).2).readChronicle n with
    | error e => exact hlooked
    | ok c =>
      have hprovided : Cache.Provided P c.schema.schema :=
        provided_of_readChronicle (by exact hstored) (by exact hlooked) hread
      have hplaced : ((db.cache.lookUpName n).2.store c).state.Provides P :=
        hlooked.serve hbuiltin (r := .store c) fun _ hc => by
          obtain rfl := Cache.Request.store.inj hc
          exact hprovided
      rw [whenOk]
      refine holds_andThen (I := fun db => db.cache.Provides P) (by exact hplaced) fun stored => ?_
      cases stored with
      | some stored => exact hplaced
      | none =>
        exact hplaced.serve hbuiltin (r := .lookUp c.surrogate) fun _ hr => by cases hr

theorem provides_serve (hbuiltin : ∀ p ∈ Builtin.properties, P p) (hstored : db.store.Mentions P)
    (hcache : db.cache.Provides P) (r : Request) : (db.serve r).state.cache.Provides P := by
  refine holds_serve (I := fun db => db.cache.Provides P) hcache (fun _ _ h => h) (fun db h => ?_)
    (fun db x h => ?_) (fun db' n hschemas h => ?_) r
  · exact h.serve hbuiltin (r := .clear) fun _ hr => by cases hr
  · exact h.serve hbuiltin (r := .clearChronicle x) fun _ hr => by cases hr
  · refine provides_chronicle hbuiltin (fun m b hb => ?_) h n
    rw [hschemas] at hb
    exact hstored m b hb

/-- What a client may be given as a property: a built-in one, one that is read by its name, or one that
is stored as it is. -/
def Gives (db : Database) (p : Property) : Prop :=
  p.isBuiltin ∨ (∃ name, db.property name = .ok p) ∨ db.store.findProperty? p.surrogate = some p

end ChronicleMeta.Database
