import ChronicleMeta.Proofs.Database.Saving
import ChronicleMeta.Proofs.Merging
import ChronicleMeta.Proofs.Runs
import ChronicleMeta.Proofs.Store.Depth

/-!
Chains that can be followed once their schemas have been stored. When a schema is saved its own chain is
followed, but only up to the bound of the default settings, and the chains of the schemas below it are
not.
-/

namespace ChronicleMeta

def Error.isTooDeep : Error → Bool
  | .schemaChainTooDeep .. => true
  | _ => false

/-- Whether it fails because a chain is longer than allowed. -/
def failsTooDeep {α : Type} : Except Failure α → Bool
  | .error (.error e) => e.isTooDeep
  | _ => false

/-- The failure is another one. -/
def Failure.Shallow (f : Failure) : Prop := ∀ e, f = .error e → e.isTooDeep = false

theorem shallow_error {e : Error} (h : e.isTooDeep = false) : (Failure.error e).Shallow := by
  rintro _ ⟨⟩
  exact h

theorem shallow_fault (f : Fault) : (Failure.fault f).Shallow := nofun

variable {α : Type}

theorem failsTooDeep_eq_false {x : Except Failure α} (h : Raises Failure.Shallow x) :
    failsTooDeep x = false := by
  unfold failsTooDeep
  split
  next e => exact h _ rfl e rfl
  next => rfl

theorem raises_lift {x : Except Error α} (h : Raises (fun e => e.isTooDeep = false) x) :
    Raises Failure.Shallow (liftM x : Except Failure α) :=
  h.mapError fun _ => shallow_error

theorem raises_lift_fault (x : Except Fault α) :
    Raises Failure.Shallow (liftM x : Except Failure α) :=
  Raises.mapError (P := fun _ => True) (fun _ _ => trivial) fun f _ => shallow_fault f

theorem raises_clash {x : Except Error α} (h : Clashes x) : Raises (fun e => e.isTooDeep = false) x :=
  h.mono fun e he => by
    cases e <;> first | rfl | cases he

theorem Schema.raises_ensureComplete (s : Schema) : Raises Failure.Shallow s.ensureComplete := by
  refine (raises_lift_fault _).bind fun missing _ => ?_
  cases missing with
  | none => exact raises_ok ()
  | some missing => exact raises_error (shallow_error rfl)

/-- A schema whose chain can be followed is not too deep to be resolved. -/
theorem Blueprint.raises_resolve {source : Source} {config : ResolutionConfig} {b : Blueprint}
    {chain : List Blueprint} (h : b.chain source config.maxDepth = .ok chain) :
    Raises Failure.Shallow (b.resolve source config) := by
  have hmerge : Raises (fun e => e.isTooDeep = false) (b.merge source config.maxDepth) := by
    refine Raises.bind (h ▸ raises_ok chain) fun chain _ => ?_
    exact (raises_clash (Blueprint.clashes_flatten _)).bind fun _ _ => raises_ok _
  refine (raises_lift hmerge).bind fun schema _ => ?_
  split_ifs
  · exact schema.raises_ensureComplete.bind fun _ _ => raises_ok schema
  · exact raises_ok schema

namespace Database

variable {db : Database} {b b' : Blueprint}

theorem raises_loadSchema (db : Database) (name : String) :
    Raises (fun e => e.isTooDeep = false) (db.loadSchema name) := by
  unfold loadSchema
  split
  · exact raises_ok _
  · exact raises_error rfl

theorem raises_check (db : Database) (p : Permission) (x : Surrogate) :
    Raises (fun e => e.isTooDeep = false) (db.check p x) := by
  unfold check Permissions.check
  split_ifs
  · exact raises_ok _
  · exact raises_error rfl

theorem raises_dependent? (h : ∀ n b, db.store.schemas.get? n = some b →
      ∃ chain, b.chain db.store.source db.resolution.maxDepth = .ok chain)
    (name : String) (x : Surrogate) (names : List String) :
    Raises (fun e => e.isTooDeep = false) (db.dependent? name x names) := by
  induction names with
  | nil => exact raises_ok none
  | cons other names ih =>
    rw [dependent?]
    split_ifs
    · exact ih
    · refine (db.raises_loadSchema other).bind fun b hb => ?_
      obtain ⟨chain, hchain⟩ := h other b (schema?_of_loadSchema hb)
      have hdependencies : Raises (fun e => e.isTooDeep = false)
          (b.dependencies db.store.source db.resolution.maxDepth) := by
        rw [Blueprint.dependencies, hchain]
        exact raises_ok _
      refine hdependencies.bind fun surrogates _ => ?_
      split_ifs
      · exact raises_ok _
      · exact ih

theorem raises_deletableSchema (h : ∀ n b, db.store.schemas.get? n = some b →
      ∃ chain, b.chain db.store.source db.resolution.maxDepth = .ok chain) (name : String) :
    Raises (fun e => e.isTooDeep = false) (db.deletableSchema name) := by
  refine (db.raises_loadSchema name).bind fun b _ => (db.raises_check _ _).bind fun _ _ =>
    (raises_dependent? h name b.surrogate _).bind fun other _ => ?_
  cases other with
  | some other => exact raises_error rfl
  | none =>
    dsimp only
    split
    · exact raises_error rfl
    · exact raises_ok b

theorem raises_storeDelete (s : Store) (x : Surrogate) :
    Raises (fun e => e.isTooDeep = false) (s.deleteSchema x).result := by
  unfold Store.deleteSchema
  cases s.loadSchema x with
  | none => exact raises_error rfl
  | some b => exact raises_ok ()

/-- The chain of every stored schema is within the limit, and neither to read nor to delete a schema
fails for a chain that is too deep. -/
structure Walkable (db : Database) (limit : Nat) : Prop where
  height : ∀ n b, db.store.schemas.get? n = some b → ∃ k ≤ limit, db.store.Height (some n) k
  schema : ∀ name, failsTooDeep (db.schema name) = false
  deleteSchema : ∀ name, failsTooDeep (db.deleteSchema name).result = false

theorem Walkable.within {limit : Nat} (h : db.Walkable limit) : db.store.Within limit := by
  intro n k hk
  cases id hk with
  | next hb _ =>
    obtain ⟨k', hle, hk'⟩ := h.height n _ hb
    exact hk.unique hk' ▸ hle

theorem walkable_of_within (hforest : db.store.Forest)
    (h : db.store.Within db.resolution.maxDepth) : db.Walkable db.resolution.maxDepth := by
  have hheight : ∀ n b, db.store.schemas.get? n = some b →
      ∃ k ≤ db.resolution.maxDepth, db.store.Height (some n) k := by
    intro n b hb
    obtain ⟨k, hk⟩ := (hforest.grounded n b hb).height
    exact ⟨k, h n k hk, hk⟩
  have hchain : ∀ n b, db.store.schemas.get? n = some b →
      ∃ chain, b.chain db.store.source db.resolution.maxDepth = .ok chain := by
    intro n b hb
    obtain ⟨k, hle, hk⟩ := hheight n b hb
    obtain ⟨chain, hchain, -⟩ := hk.chain_eq_ok hb (hforest.schemas.name_eq n b hb) hle
    exact ⟨chain, hchain⟩
  refine ⟨hheight, fun name => ?_, fun name => ?_⟩
  · refine failsTooDeep_eq_false ((raises_lift (db.raises_loadSchema name)).bind fun b hb => ?_)
    obtain ⟨chain, hb⟩ := hchain name b (schema?_of_loadSchema (mapError_eq_ok_iff.1 hb))
    exact (raises_lift (db.raises_check _ _)).bind fun _ _ => Blueprint.raises_resolve hb
  · have hdeletable := raises_lift (raises_deletableSchema hchain name)
    refine failsTooDeep_eq_false ?_
    unfold Database.deleteSchema
    cases hb : db.deletableSchema name with
    | error e =>
      refine raises_error ?_
      exact hdeletable _ (by rw [hb]; rfl)
    | ok b => exact raises_lift (raises_storeDelete db.store b.surrogate)

theorem of_ofStore {store : Store} {config : Config} (h : ofStore store config = .ok db) :
    db.store = store ∧ db.resolution = config.resolution := by
  obtain ⟨_, -, h⟩ := bind_eq_ok_iff.1 h
  obtain ⟨cache, -, h⟩ := bind_eq_ok_iff.1 h
  obtain rfl := pure_eq_ok_iff.1 h
  exact ⟨rfl, rfl⟩

/-- To save the schema makes a chain longer than allowed: its own, or that of a schema from which bases
lead to it. -/
def Deepens (db : Database) (limit : Nat) (b : Blueprint) : Prop :=
  ∃ chain m j, b.chain db.store.source ({} : ResolutionConfig).maxDepth = .ok chain ∧
    db.store.Below b.name m j ∧ limit < j + chain.length

theorem puts_updateSchema (hforest : db.store.Forest) (ht : db.store.Tracks b)
    (h : (db.updateSchema b).result = .ok b') :
    ∃ chain, b.chain db.store.source ({} : ResolutionConfig).maxDepth = .ok chain ∧
      db.store.Puts b (db.updateSchema b).state.store := by
  obtain ⟨e, hs⟩ | ⟨chain, hchain, hs | hs⟩ := updateSchema_cases db b
  · rw [hs] at h
    cases h
  · rw [hs] at h ⊢
    obtain ⟨id, hid, -⟩ := Outcome.result_andThen_eq_ok h
    rw [store_andThen _ _ fun id db => store_whenOk fun _ => rfl]
    exact ⟨chain, hchain, Store.puts_createSchema (mapError_eq_ok_iff.1 hid)⟩
  · rw [hs] at h ⊢
    obtain ⟨_, hok, -⟩ := Outcome.result_andThen_eq_ok h
    rw [store_andThen _ _ fun _ _ => rfl]
    exact ⟨chain, hchain, hforest.puts_updateSchema ht (mapError_eq_ok_iff.1 hok)⟩

/-- All chains are within the limit after a schema has been saved exactly if saving it deepens none. -/
theorem within_updateSchema_iff (hforest : db.store.Forest) (ht : db.store.Tracks b)
    (h : (db.updateSchema b).result = .ok b') {limit : Nat} (hwithin : db.store.Within limit) :
    (db.updateSchema b).state.store.Within limit ↔ ¬db.Deepens limit b := by
  obtain ⟨chain, hchain, hputs⟩ := puts_updateSchema hforest ht h
  rw [hputs.within_iff hchain hwithin]
  constructor
  · rintro hshort ⟨chain', m, j, hchain', hbelow, hlt⟩
    obtain rfl := Except.ok.inj (hchain.symm.trans hchain')
    have hle := hshort m j hbelow
    omega
  · intro hnot m j hbelow
    by_contra hlong
    exact hnot ⟨chain, m, j, hchain, hbelow, by omega⟩

/-- Where at least as many schemas are allowed as by default, no chain becomes too long when a schema is
saved that no other one extends. -/
theorem not_deepens_of_free {limit : Nat} (hlimit : ({} : ResolutionConfig).maxDepth ≤ limit)
    (hfree : ∀ m, ¬db.store.Extends m b.name) : ¬db.Deepens limit b := by
  rintro ⟨chain, m, j, hchain, hbelow, hlong⟩
  obtain ⟨k, -, hlength, hle⟩ :=
    Store.height_of_walk hchain (fun m _ => Eq.refl (db.store.schemas.get? m))
  have hzero := hbelow.eq_zero hfree
  have hdefault : ({} : ResolutionConfig).maxDepth = 64 := rfl
  rw [List.length_singleton] at hlength
  omega

/-- No chain becomes longer when a schema is saved with the base that it has. -/
theorem not_deepens_of_base {limit : Nat} (hwithin : db.store.Within limit) {old : Blueprint}
    (hold : db.store.schemas.get? b.name = some old) (hbase : old.base = b.base) :
    ¬db.Deepens limit b := by
  rintro ⟨chain, m, j, hchain, hbelow, hlong⟩
  have hheight := Store.Puts.height ⟨⟨old, hold, hbase⟩, fun _ _ => rfl⟩ hchain
  have hbound := hwithin m _ (hbelow.height hheight fun _ _ => rfl)
  omega

/-- Every request but to save a session leaves the chains within the limit. -/
theorem within_serve {limit : Nat} (h : db.store.Within limit) {r : Request}
    (hr : ∀ b, r ≠ .updateSchema b) : (db.serve r).state.store.Within limit := by
  refine holds_store_serve (I := fun s => s.Within limit) h fun r' hasks => ?_
  cases hasks with
  | createSchema => exact absurd rfl (hr _)
  | updateSchema => exact absurd rfl (hr _)
  | deleteSchema => exact h.deleteSchema _
  | createProperty => exact h.of_schemas_eq (Store.schemas_createProperty _ _)
  | updateProperty => exact h.updateProperty _
  | deleteProperty => exact h.of_schemas_eq (Store.schemas_deleteProperty _ _)
  | createChronicle => exact h.of_schemas_eq (Store.schemas_createChronicle _ _)
  | deleteChronicle => exact h.of_schemas_eq (Store.schemas_deleteChronicle _ _)

end Database

namespace Workspace

/-- The request saves a session and makes a chain longer than allowed. -/
def Deepens (w : Workspace) (limit : Nat) (r : Request) : Prop :=
  ∃ b, w.Saves r b ∧ w.database.Deepens limit b

variable {w : Workspace}

theorem within_serve_iff (h : w.Sound) {limit : Nat} (hwithin : w.database.store.Within limit)
    (r : Request) : (w.serve r).database.store.Within limit ↔ ¬w.Deepens limit r := by
  obtain ⟨b, hsaves, hs⟩ | ⟨hnot, hs⟩ := w.store_serve r
  · obtain ⟨i, b', -, -, hok⟩ := id hsaves
    have ht := h.tracks b hsaves.mem_sessions
    rw [hs, Database.within_updateSchema_iff h.forest ht hok hwithin]
    refine not_congr ⟨fun hdeepens => ⟨b, hsaves, hdeepens⟩, ?_⟩
    rintro ⟨c, hc, hdeepens⟩
    exact hsaves.unique hc ▸ hdeepens
  · refine ⟨fun _ ⟨b, hb, _⟩ => hnot b hb, fun _ => ?_⟩
    obtain hs | ⟨r, hr, rfl, hs⟩ := hs
    · rw [hs]
      exact hwithin
    · rw [hs]
      exact Database.within_serve hwithin hr

theorem resolution_serve (w : Workspace) (r : Request) :
    (w.serve r).database.resolution = w.database.resolution := by
  obtain ⟨granted, hs⟩ | ⟨r', hs⟩ := w.database_serve r <;> rw [hs]
  exact (Database.keeps_serve w.database r').resolution_eq

theorem resolution_run (w : Workspace) (rs : List Request) :
    (w.run rs).database.resolution = w.database.resolution := by
  induction rs generalizing w with
  | nil => rfl
  | cons r rs ih => exact (ih (w.serve r)).trans (w.resolution_serve r)

/-- A database opened with accepted settings, whatever sessions are begun, changed and saved and
whatever else is requested: the chain of every stored schema is always within the bound of the
settings, so that no schema is too deep to be read or deleted, exactly if no save makes a chain longer
than that, be it the chain of the schema saved or of one below it. -/
theorem depth_run {database : DatabaseId} {config : Config} {db : Database}
    (hdb : Database.ofStore { database } config = .ok db) (rs : List Request) :
    (∀ rs', rs' <+: rs → (run ⟨db, []⟩ rs').database.Walkable config.resolution.maxDepth) ↔
      ∀ rs' r, rs' ++ [r] <+: rs → ¬(run ⟨db, []⟩ rs').Deepens config.resolution.maxDepth r := by
  obtain ⟨hstore, hresolution⟩ := Database.of_ofStore hdb
  have hsound : ∀ rs', (run ⟨db, []⟩ rs').Sound :=
    Sound.run ⟨hstore ▸ Store.forest_empty database, by simp⟩
  have hlimit : ∀ rs', (run ⟨db, []⟩ rs').database.resolution.maxDepth = config.resolution.maxDepth :=
    fun rs' => by rw [resolution_run, hresolution]
  have hwithin : db.store.Within config.resolution.maxDepth := by
    rw [hstore]
    rintro n k (⟨⟩ | ⟨hb, -⟩)
    simp at hb
  have hiff := forall_foldl_iff
    (fun w : Workspace => w.database.store.Within config.resolution.maxDepth)
    (fun w r => w.Deepens config.resolution.maxDepth r) (s := ⟨db, []⟩) hwithin
    (fun rs' r h => within_serve_iff (hsound rs') h r) rs
  refine Iff.trans ⟨fun hall rs' hrs' => (hall rs' hrs').within, fun hall rs' hrs' => ?_⟩ hiff
  rw [← hlimit rs']
  refine Database.walkable_of_within (hsound rs').forest ?_
  rw [hlimit rs']
  exact hall rs' hrs'

def sampleConfig (maxDepth : Nat) : Config where
  cache := { capacity := 1 }
  resolution := { maxDepth, requireComplete := false }

def sampleOpened (maxDepth : Nat) : Database :=
  .fresh ⟨1⟩ 1 Nat.one_pos {} { maxDepth, requireComplete := false }

def sampleExtension : List Request :=
  [.newSchema "a", .save 0, .newSchema "b", .inSession 1 (.setBase (some "a")), .save 1]

theorem depth_run_sample :
    Database.ofStore { database := ⟨1⟩ } (sampleConfig 64) = .ok (sampleOpened 64) ∧
      (run ⟨sampleOpened 64, []⟩ sampleExtension).database.store.Extends "b" "a" ∧
      (run ⟨sampleOpened 64, []⟩ sampleExtension).database.Walkable 64 := by
  have hopened : Database.ofStore { database := ⟨1⟩ } (sampleConfig 64) = .ok (sampleOpened 64) := rfl
  have hbase : ((run ⟨sampleOpened 64, []⟩ sampleExtension).database.store.schemas.get? "b").map
      (·.base) = some (some "a") := by decide +kernel
  obtain ⟨b, hb, hextends⟩ := Option.map_eq_some_iff.1 hbase
  -- no schema that is saved has been extended before
  have hfree : ∀ k < sampleExtension.length, ∀ b ∈
      (run ⟨sampleOpened 64, []⟩ (sampleExtension.take k)).sessions, ∀ e ∈
      (run ⟨sampleOpened 64, []⟩ (sampleExtension.take k)).database.store.schemas.toList,
      e.2.base ≠ some b.name := by
    decide +kernel
  refine ⟨hopened, ⟨b, hb, hextends⟩, (depth_run hopened sampleExtension).2 ?_ _ List.prefix_rfl⟩
  rw [forall_concat_prefix_iff]
  rintro k hk ⟨b, hsaves, hdeepens⟩
  refine Database.not_deepens_of_free (Nat.le_refl 64) ?_ hdeepens
  rintro m ⟨c, hc, hextends⟩
  exact hfree k hk b hsaves.mem_sessions (m, c) (SortedMap.mem_toList_iff.2 hc) hextends

def sampleRebase : List Request :=
  sampleExtension ++ [.newSchema "c", .save 2, .editSchema "a", .inSession 3 (.setBase (some "c")),
    .save 3]

/-- The chain of a schema is followed up to another bound when it is saved, and the chains of schemas
below it are not followed. -/
theorem depth_run_deep :
    (Database.ofStore { database := ⟨1⟩ } (sampleConfig 1) = .ok (sampleOpened 1) ∧
      failsTooDeep ((run ⟨sampleOpened 1, []⟩ sampleExtension).database.schema "b")) ∧
    Database.ofStore { database := ⟨1⟩ } (sampleConfig 2) = .ok (sampleOpened 2) ∧
      failsTooDeep ((run ⟨sampleOpened 2, []⟩ sampleRebase).database.schema "b") ∧
      failsTooDeep ((run ⟨sampleOpened 2, []⟩ sampleRebase).database.deleteSchema "a").result := by
  refine ⟨⟨rfl, ?_⟩, rfl, ?_, ?_⟩ <;> decide +kernel

end Workspace

end ChronicleMeta
