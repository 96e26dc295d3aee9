import ChronicleMeta.Proofs.Database.Request
import ChronicleMeta.Proofs.Store.Effect
import ChronicleMeta.Proofs.Store.Request

/-!
What a request leaves alone: of a database it can change the store and the cache only, and one that
reads leaves the store as it is.
-/

namespace ChronicleMeta.Database

variable {ε α β : Type} {db db' db'' : Database}

theorem holds_whenOk {I : Database → Prop} {checked : Except Failure α}
    {act : α → Outcome Failure Database β} (h : I db) (hact : ∀ a, I (act a).state) :
    I (db.whenOk checked act).state := by
  cases checked with
  | error e => exact h
  | ok a => exact hact a

theorem holds_andThen {I : Database → Prop} {r : Outcome ε Database α}
    {act : α → Database → Outcome ε Database β} (h : I r.state)
    (hact : ∀ a, I (act a r.state).state) : I (r.andThen act).state := by
  unfold Outcome.andThen
  cases r.result with
  | error e => exact h
  | ok a => exact hact a

/-- What is true of a database after every request: what a change of the store does not spoil, nor to
empty the cache, to drop a chronicle from it, and to read a chronicle while the schemas are the same. -/
theorem holds_serve {I : Database → Prop} (h : I db) (hstore : ∀ db s, I db → I (db.withStore s))
    (hclear : ∀ db, I db → I db.clearCache)
    (hdrop : ∀ db x, I db → I (db.withCache (db.cache.clearChronicle x).state))
    (hread : ∀ db' n, db'.store.schemas = db.store.schemas → I db' → I (db'.chronicle n).state)
    (r : Request) : I (db.serve r).state := by
  have hcleared : ∀ s, I (db.clearCache.withStore s) := fun s => hstore _ s (hclear db h)
  cases r with
  | updateSchema b =>
    change I (db.updateSchema b).state
    unfold Database.updateSchema save
    refine holds_whenOk h fun _ => holds_whenOk h fun _ => ?_
    split
    · have hstored : I (db.onStore (·.createSchema b)).state := hstore db _ h
      exact holds_andThen hstored fun id => holds_whenOk hstored fun _ => hstored
    · have hstored : I (db.clearCache.onStore (·.updateSchema b)).state := hcleared _
      exact holds_andThen hstored fun _ => hstored
  | deleteSchema name =>
    change I (db.deleteSchema name).state
    exact holds_whenOk h fun _ => hcleared _
  | createProperty p =>
    have hstored : I (db.onStore (·.createProperty p)).state := hstore db _ h
    change I (db.createProperty p).state
    exact holds_whenOk h fun _ => holds_andThen hstored fun id => holds_whenOk hstored fun _ => hstored
  | updateProperty p =>
    change I (db.updateProperty p).state
    exact holds_whenOk h fun _ => hcleared _
  | deleteProperty name =>
    change I (db.deleteProperty name).state
    exact holds_whenOk h fun _ => hcleared _
  | createChronicle fullName description schemaName =>
    change I (db.createChronicle fullName description schemaName).state
    refine holds_whenOk h fun stored => ?_
    have hstored : I (db.onStore (·.createChronicle stored)).state := hstore db _ h
    refine holds_andThen hstored fun _ => hread _ fullName ?_ hstored
    exact Store.schemas_createChronicle db.store stored
  | deleteChronicle fullName =>
    change I (db.deleteChronicle fullName).state
    refine holds_whenOk h fun stored => ?_
    have hdropped := hdrop db stored.surrogate h
    exact holds_andThen hdropped fun _ => hstore _ _ hdropped
  | chronicle fullName => exact hread db fullName rfl h
  | property name => exact h

theorem schemas_createProperty (db : Database) (p : Property) :
    (db.createProperty p).state.store.schemas = db.store.schemas := by
  let I : Database → Prop := fun db' => db'.store.schemas = db.store.schemas
  have hstored : I (db.onStore (·.createProperty p)).state :=
    Store.schemas_createProperty db.store p
  have hcreated : I (db.createProperty p).state := holds_whenOk rfl fun _ =>
    holds_andThen hstored fun id => holds_whenOk hstored fun _ => hstored
  exact hcreated

/-- The database has another store and another cache, and is the same otherwise. -/
def Keeps (db db' : Database) : Prop := ∃ store cache, db' = { db with store, cache }

theorem keeps_refl (db : Database) : db.Keeps db := ⟨db.store, db.cache, rfl⟩

theorem Keeps.trans (h : db.Keeps db') (h' : db'.Keeps db'') : db.Keeps db'' := by
  obtain ⟨store, cache, rfl⟩ := h
  obtain ⟨store', cache', rfl⟩ := h'
  exact ⟨store', cache', rfl⟩

theorem Keeps.granted_eq (h : db.Keeps db') : db'.granted = db.granted := by
  obtain ⟨store, cache, rfl⟩ := h
  rfl

theorem Keeps.naming_eq (h : db.Keeps db') : db'.naming = db.naming := by
  obtain ⟨store, cache, rfl⟩ := h
  rfl

theorem Keeps.resolution_eq (h : db.Keeps db') : db'.resolution = db.resolution := by
  obtain ⟨store, cache, rfl⟩ := h
  rfl

theorem Keeps.withCache (h : db.Keeps db') (cache : Cache) : db.Keeps (db'.withCache cache) :=
  h.trans ⟨db'.store, cache, rfl⟩

theorem Keeps.chronicle (h : db.Keeps db') (fullName : String) :
    db.Keeps (db'.chronicle fullName).state := by
  unfold Database.chronicle
  dsimp only
  have hlooked := h.withCache (db'.cache.lookUpName fullName).2
  split
  · exact hlooked
  · refine holds_whenOk hlooked fun c => holds_andThen (hlooked.withCache _) fun stored => ?_
    cases stored with
    | some stored => exact hlooked.withCache _
    | none => exact (hlooked.withCache _).withCache _

theorem keeps_serve (db : Database) (r : Request) : db.Keeps (db.serve r).state :=
  holds_serve (I := db.Keeps) (keeps_refl db) (fun db' s h => h.trans ⟨s, db'.cache, rfl⟩)
    (fun db' h => h.withCache db'.cache.clear) (fun _ _ h => h.withCache _)
    (fun _ n _ h => h.chronicle n) r

theorem keeps_run (db : Database) (rs : List Request) : db.Keeps (db.run rs) := by
  induction rs generalizing db with
  | nil => exact keeps_refl db
  | cons r rs ih => exact (keeps_serve db r).trans (ih _)

theorem store_andThen (r : Outcome Failure Database α)
    (act : α → Database → Outcome Failure Database β)
    (hact : ∀ a db, (act a db).state.store = db.store) :
    (r.andThen act).state.store = r.state.store :=
  holds_andThen (I := fun db => db.store = r.state.store) rfl fun a => hact a r.state

theorem store_whenOk {checked : Except Failure α} {act : α → Outcome Failure Database β}
    (hact : ∀ a, (act a).state.store = db.store) : (db.whenOk checked act).state.store = db.store :=
  holds_whenOk (I := fun db' => db'.store = db.store) rfl hact

theorem store_chronicle (db : Database) (fullName : String) :
    (db.chronicle fullName).state.store = db.store := by
  unfold Database.chronicle
  dsimp only
  split
  · rfl
  · refine store_whenOk fun c => store_andThen _ _ fun stored db => ?_
    cases stored <;> rfl

/-- All that saving a session does: it fails, or it stores the schema after its chain has been followed. -/
theorem updateSchema_saves (db : Database) (b : Blueprint) :
    (∃ e, db.updateSchema b = .fail db e) ∨
      ∃ chain, b.chain db.store.source ({} : ResolutionConfig).maxDepth = .ok chain ∧
        db.updateSchema b = if b.surrogate.isPending then
          (db.onStore (·.createSchema b)).andThen fun id db =>
            db.whenOk (Failure.ofError (b.upgrade id)) fun b => .ok db b.close
        else (db.clearCache.onStore (·.updateSchema b)).andThen fun () db => .ok db b.close := by
  unfold updateSchema save
  dsimp only
  generalize db.check _ _ = permitted
  cases permitted with
  | error e => exact .inl ⟨_, rfl⟩
  | ok u =>
    cases hchecked : (do b.ensureEditing; b.chain db.store.source ({} : ResolutionConfig).maxDepth) with
    | error e => exact .inl ⟨_, rfl⟩
    | ok chain =>
      obtain ⟨_, -, hchain⟩ := bind_eq_ok_iff.1 hchecked
      exact .inr ⟨chain, hchain, rfl⟩

/-- All that saving a session can do to the store: nothing, or to store the schema after its chain has
been followed. -/
theorem updateSchema_cases (db : Database) (b : Blueprint) :
    (∃ e, db.updateSchema b = .fail db e) ∨
      ∃ chain, b.chain db.store.source ({} : ResolutionConfig).maxDepth = .ok chain ∧
        (db.updateSchema b = ((db.onStore (·.createSchema b)).andThen fun id db =>
            db.whenOk (Failure.ofError (b.upgrade id)) fun b => .ok db b.close) ∨
          db.updateSchema b =
            (db.clearCache.onStore (·.updateSchema b)).andThen fun () db => .ok db b.close) := by
  obtain hs | ⟨chain, hchain, hs⟩ := updateSchema_saves db b
  · exact .inl hs
  · refine .inr ⟨chain, hchain, ?_⟩
    split_ifs at hs
    · exact .inl hs
    · exact .inr hs

/-- What a request has the store do once it is found to be in order. -/
inductive Asks (db : Database) : Request → Store.Request → Prop
  | createSchema {b chain} (h : b.chain db.store.source ({} : ResolutionConfig).maxDepth = .ok chain) :
    Asks db (.updateSchema b) (.createSchema b)
  | updateSchema {b chain} (h : b.chain db.store.source ({} : ResolutionConfig).maxDepth = .ok chain) :
    Asks db (.updateSchema b) (.updateSchema b)
  | deleteSchema {name b} (h : db.deletableSchema name = .ok b) :
    Asks db (.deleteSchema name) (.deleteSchema b.surrogate)
  | createProperty {p} : Asks db (.createProperty p) (.createProperty p)
  | updateProperty {p} (h : db.check .modify p.surrogate = .ok ()) :
    Asks db (.updateProperty p) (.updateProperty p)
  | deleteProperty {name p} (h : db.deletableProperty name = .ok p) :
    Asks db (.deleteProperty name) (.deleteProperty p.surrogate)
  | createChronicle {fullName description schemaName stored}
      (h : db.creatableChronicle fullName description schemaName = .ok stored) :
    Asks db (.createChronicle fullName description schemaName) (.createChronicle stored)
  | deleteChronicle {fullName stored} (h : db.deletableChronicle fullName = .ok stored) :
    Asks db (.deleteChronicle fullName) (.deleteChronicle stored.surrogate)

theorem whenOk_cases (db : Database) (checked : Except Failure α)
    (act : α → Outcome Failure Database β) :
    (db.whenOk checked act).state.store = db.store ∨
      ∃ a, checked = .ok a ∧ db.whenOk checked act = act a := by
  cases checked with
  | error e => exact .inl rfl
  | ok a => exact .inr ⟨a, rfl, rfl⟩

/-- All that a request does to the store: nothing, or what it has the store do. -/
theorem store_serve (db : Database) (r : Request) :
    (db.serve r).state.store = db.store ∨
      ∃ r', db.Asks r r' ∧ (db.serve r).state.store = db.store.serve r' := by
  cases r with
  | updateSchema b =>
    change (db.updateSchema b).state.store = db.store ∨ ∃ r', db.Asks (.updateSchema b) r' ∧
      (db.updateSchema b).state.store = db.store.serve r'
    obtain ⟨e, hs⟩ | ⟨chain, hchain, hs | hs⟩ := updateSchema_cases db b
    · exact .inl (by rw [hs]; rfl)
    · refine .inr ⟨_, .createSchema hchain, ?_⟩
      rw [hs, store_andThen _ _ fun id db => store_whenOk fun _ => rfl]
      rfl
    · refine .inr ⟨_, .updateSchema hchain, ?_⟩
      rw [hs, store_andThen _ _ fun _ _ => rfl]
      rfl
  | deleteSchema name =>
    obtain hs | ⟨b, hb, hs⟩ := db.whenOk_cases (Failure.ofError (db.deletableSchema name)) fun b =>
      db.clearCache.onStore (·.deleteSchema b.surrogate)
    · exact .inl hs
    · exact .inr ⟨_, .deleteSchema (mapError_eq_ok_iff.1 hb), congrArg (·.state.store) hs⟩
  | createProperty p =>
    obtain hs | ⟨_, -, hs⟩ := db.whenOk_cases (Failure.ofError (db.check .create p.surrogate)) fun _ =>
      (db.onStore (·.createProperty p)).andThen fun id db =>
        db.whenOk (Failure.ofError (p.upgrade id)) (.ok db ·)
    · exact .inl hs
    · have hstore := store_andThen (db.onStore (·.createProperty p)) (fun id db =>
        db.whenOk (Failure.ofError (p.upgrade id)) (.ok db ·)) fun id db => store_whenOk fun _ => rfl
      exact .inr ⟨_, .createProperty, (congrArg (·.state.store) hs).trans hstore⟩
  | updateProperty p =>
    obtain hs | ⟨_, hp, hs⟩ := db.whenOk_cases (Failure.ofError (db.check .modify p.surrogate)) fun _ =>
      db.clearCache.onStore (·.updateProperty p)
    · exact .inl hs
    · exact .inr ⟨_, .updateProperty (mapError_eq_ok_iff.1 hp), congrArg (·.state.store) hs⟩
  | deleteProperty name =>
    obtain hs | ⟨p, hp, hs⟩ := db.whenOk_cases (Failure.ofError (db.deletableProperty name)) fun p =>
      db.clearCache.onStore (·.deleteProperty p.surrogate)
    · exact .inl hs
    · exact .inr ⟨_, .deleteProperty (mapError_eq_ok_iff.1 hp), congrArg (·.state.store) hs⟩
  | createChronicle fullName description schemaName =>
    obtain hs | ⟨stored, hc, hs⟩ :=
      db.whenOk_cases (db.creatableChronicle fullName description schemaName) fun stored =>
        (db.onStore (·.createChronicle stored)).andThen fun _ db => db.chronicle fullName
    · exact .inl hs
    · have hstore := store_andThen (db.onStore (·.createChronicle stored))
        (fun _ db => db.chronicle fullName) fun _ db => store_chronicle db fullName
      exact .inr ⟨_, .createChronicle hc, (congrArg (·.state.store) hs).trans hstore⟩
  | deleteChronicle fullName =>
    obtain hs | ⟨c, hc, hs⟩ := db.whenOk_cases (Failure.ofError (db.deletableChronicle fullName))
      fun stored => ((db.cache.clearChronicle stored.surrogate).inState db.withCache).andThen fun _ db =>
        db.onStore (·.deleteChronicle stored.surrogate)
    · exact .inl hs
    · unfold Outcome.andThen at hs
      split at hs
      · exact .inr ⟨_, .deleteChronicle (mapError_eq_ok_iff.1 hc), congrArg (·.state.store) hs⟩
      · exact .inl (congrArg (·.state.store) hs)
  | chronicle fullName => exact .inl (store_chronicle db fullName)
  | property name => exact .inl rfl

/-- What is true of the store, and after all that a request may have it do, is true after the request. -/
theorem holds_store_serve {I : Store → Prop} {r : Request} (h : I db.store)
    (hasks : ∀ r', db.Asks r r' → I (db.store.serve r')) : I (db.serve r).state.store := by
  obtain hs | ⟨r', hr', hs⟩ := store_serve db r
  · exact hs ▸ h
  · exact hs ▸ hasks r' hr'

end ChronicleMeta.Database
