import ChronicleMeta.Proofs.Database.Integrity
import ChronicleMeta.Proofs.Store.Sealed

/-!
A workspace of which more is asked: its store is used directly too, schemas are loaded without a
session, begun under any surrogate, saved without permission, and saved to other databases.
-/

namespace ChronicleMeta

variable {F : Attribute → Prop}

namespace Database

variable {db : Database}

/-- Every request but to save a session keeps the schemas of the store closed. -/
theorem sealed_serve (h : db.store.Sealed F) (hF : Attribute.Steady F) {r : Request}
    (hr : ∀ b, r ≠ .updateSchema b)
    (hp : ∀ p, r = .updateProperty p → (db.updateProperty p).result = .ok () →
      db.store.Replaces F p) :
    (db.serve r).state.store.Sealed F := by
  refine holds_store_serve h fun r' hasks => h.serve hF ?_
  cases hasks with
  | createSchema => exact absurd rfl (hr _)
  | updateSchema => exact absurd rfl (hr _)
  | @updateProperty p hcheck =>
    -- with permission the database succeeds exactly where the store does
    refine fun hok => hp p rfl ?_
    simp only [Database.updateProperty, hcheck, Failure.ofError, whenOk, onStore, clearCache,
      Outcome.inState, Outcome.mapError, hok, Except.mapError]
  | _ => trivial

/-- A session that is saved with permission is saved. -/
theorem updateSchema_eq_save (db : Database) (b : Blueprint) :
    (∃ e, db.updateSchema b = .fail db e) ∨ db.updateSchema b = db.save b := by
  unfold updateSchema
  dsimp only
  generalize Failure.ofError (db.check _ b.surrogate) = permitted
  cases permitted with
  | error e => exact .inl ⟨e, rfl⟩
  | ok u => exact .inr rfl

/-- What saving leaves of a store whose schemas are closed, and of the schema in the session. -/
theorem sealed_save (h : db.store.Sealed F) (hF : Attribute.Steady F) {b : Blueprint}
    (hb : b.Orderly F) : (db.save b).state.store.Sealed F ∧
      ∀ b', (db.save b).result = .ok b' → b'.Orderly F := by
  obtain ⟨e, db', hstore, hs⟩ | ⟨db', b', -, hs, hsaved, hstore⟩ := save_cases db b
  · rw [hs]
    refine ⟨?_, fun b' hb' => by cases hb'⟩
    change db'.store.Sealed F
    rw [hstore]
    exact h
  · rw [hs]
    refine ⟨?_, fun b'' hb'' => ?_⟩
    · change db'.store.Sealed F
      rcases hstore with hstore | hstore
      · rw [hstore]
        exact Store.Sealed.serve (r := .createSchema b) h hF hb.definitions
      · rw [hstore]
        exact Store.Sealed.serve (r := .updateSchema b) h hF hb.definitions
    · obtain rfl := Except.ok.inj hb''
      exact (hb.of_saved hF hsaved).1

end Database

namespace Workspace

inductive Operation where
  | request (r : Request)
  | start (x : Surrogate) (name : String)
  /-- To load the stored schema of the name, which is not in a session. -/
  | load (name : String)
  | loadBy (x : Surrogate)
  /-- To go a step on with a schema, which may be to save it to another database. -/
  | step (i : Nat) (t : Blueprint.Step)
  | apply (i : Nat)
  /-- To store a schema as a new one, and leave its session as it is. -/
  | create (i : Nat)
  /-- To store a schema in the place of the one with its surrogate, and leave its session. -/
  | replace (i : Nat)
  | toStore (r : Store.Request) (h : r.schema? = none)

def onStore (w : Workspace) (r : Store.Request) : Workspace :=
  { w with database := w.database.withStore (w.database.store.serve r) }

/-- The workspace after the operation, whether it succeeds or fails. -/
def perform (w : Workspace) : Operation → Workspace
  | .request r => w.serve r
  | .start surrogate name => w.withSession { surrogate, name }
  | .load name =>
    match w.database.store.schema? name with
    | some b => w.withSession b
    | none => w
  | .loadBy x =>
    match w.database.store.loadSchema x with
    | some b => w.withSession b
    | none => w
  | .step i t => { w with sessions := w.sessions.modify i (·.step t) }
  | .apply i =>
    match w.sessions[i]? with
    | some b =>
      let r := w.database.saveSession b
      ⟨r.state.1, w.sessions.set i r.state.2⟩
    | none => w
  | .create i =>
    match w.sessions[i]? with
    | some b => w.onStore (.createSchema b)
    | none => w
  | .replace i =>
    match w.sessions[i]? with
    | some b => w.onStore (.updateSchema b)
    | none => w
  | .toStore r _ => w.onStore r

def performAll (w : Workspace) (ops : List Operation) : Workspace := ops.foldl perform w

/-- Whether the attributes that an operation brings in have the property, and stored attributes keep
it if the operation replaces a property. -/
def Admits (F : Attribute → Prop) (w : Workspace) : Operation → Prop
  | .request (.inSession _ r) => r.Seals F
  | .request (.toDatabase (.updateProperty p) _) =>
    (w.database.updateProperty p).result = .ok () → w.database.store.Replaces F p
  | .step _ t => t.Seals F
  | .toStore r _ => w.database.store.Admits F r
  | _ => True

/-- Whether so does each operation, where it is carried out. -/
def Admissible (F : Attribute → Prop) (w : Workspace) : List Operation → Prop
  | [] => True
  | op :: ops => w.Admits F op ∧ (w.perform op).Admissible F ops

/-- The schemas of the store are closed, the sessions are orderly, and all their attributes have the
property. -/
structure Sealed (F : Attribute → Prop) (w : Workspace) : Prop where
  store : w.database.store.Sealed F
  sessions : ∀ b ∈ w.sessions, b.Orderly F

variable {w : Workspace} {b : Blueprint}

theorem Sealed.withSession (h : w.Sealed F) (hb : b.Orderly F) : (w.withSession b).Sealed F where
  store := h.store
  sessions := List.forall_mem_append.2 ⟨h.sessions, List.forall_mem_singleton.2 hb⟩

theorem Sealed.modify (h : w.Sealed F) (i : Nat) {f : Blueprint → Blueprint}
    (hf : ∀ b, b.Orderly F → (f b).Orderly F) :
    Sealed F { w with sessions := w.sessions.modify i f } where
  store := h.store
  sessions b hb := by
    obtain ⟨j, hj⟩ := List.mem_iff_getElem?.1 hb
    rw [List.getElem?_modify, Option.map_eq_map, Option.map_eq_some_iff] at hj
    obtain ⟨b₀, hb₀, rfl⟩ := hj
    have horderly : b₀.Orderly F := h.sessions b₀ (List.mem_of_getElem? hb₀)
    split_ifs
    · exact hf b₀ horderly
    · exact horderly

theorem Sealed.set (h : w.Sealed F) (i : Nat) {db : Database} (hdb : db.store.Sealed F)
    (hb : b.Orderly F) : Sealed F ⟨db, w.sessions.set i b⟩ where
  store := hdb
  sessions b' hb' := by
    obtain hold | rfl := List.mem_or_eq_of_mem_set hb'
    · exact h.sessions b' hold
    · exact hb

theorem Sealed.onStore (h : w.Sealed F) (hF : Attribute.Steady F) {r : Store.Request}
    (hr : w.database.store.Admits F r) : (w.onStore r).Sealed F where
  store := h.store.serve hF hr
  sessions := h.sessions

theorem orderly_stored (h : w.Sealed F) {name : String}
    (hb : w.database.store.schema? name = some b) :
    b.Orderly F := (h.store name b hb).1

theorem Sealed.editSchema (h : w.Sealed F) {name : String}
    (hb : w.database.editSchema name = .ok b) :
    b.Orderly F := by
  obtain ⟨stored, hload, hb⟩ := bind_eq_ok_iff.1 hb
  obtain ⟨_, -, hb⟩ := bind_eq_ok_iff.1 hb
  obtain rfl := pure_eq_ok_iff.1 hb
  exact (orderly_stored h (Database.schema?_of_loadSchema hload)).edit

theorem Sealed.save (h : w.Sealed F) (hF : Attribute.Steady F) (i : Nat) : (w.save i).Sealed F := by
  unfold Workspace.save
  split
  next => exact h
  next b hb =>
    have horderly : b.Orderly F := h.sessions b (List.mem_of_getElem? hb)
    obtain ⟨hstore, hsaved⟩ := Database.sealed_save h.store hF horderly
    dsimp only
    obtain ⟨e, hs⟩ | hs := w.database.updateSchema_eq_save b
    · rw [hs]
      exact h
    · rw [hs]
      split
      next stored hok => exact h.set i hstore (hsaved stored hok)
      next => exact ⟨hstore, h.sessions⟩

theorem Sealed.apply (h : w.Sealed F) (hF : Attribute.Steady F) (i : Nat) :
    (w.perform (.apply i)).Sealed F := by
  rw [perform]
  split
  next b hb =>
    have horderly : b.Orderly F := h.sessions b (List.mem_of_getElem? hb)
    obtain ⟨hstore, hsaved⟩ := Database.sealed_save h.store hF horderly
    rw [Database.saveSession_eq]
    cases hres : (w.database.save b).result with
    | ok b' => exact h.set i hstore (hsaved b' hres)
    | error e => exact h.set i hstore horderly
  next => exact h

theorem Sealed.serve (h : w.Sealed F) (hF : Attribute.Steady F) {r : Request}
    (hr : w.Admits F (.request r)) : (w.serve r).Sealed F := by
  cases r with
  | newSchema name => exact h.withSession (Blueprint.orderly_new _ name)
  | editSchema name =>
    rw [Workspace.serve]
    split
    next b hb => exact h.withSession (h.editSchema hb)
    next => exact h
  | copySession i =>
    rw [Workspace.serve]
    split
    next b hb => exact h.withSession (h.sessions b (List.mem_of_getElem? hb))
    next => exact h
  | inSession i r => exact h.modify i fun b hb => hb.serve hF hr
  | save i => exact h.save hF i
  | permit granted => exact ⟨h.store, h.sessions⟩
  | toDatabase r hnot =>
    refine ⟨Database.sealed_serve h.store hF hnot fun p hp => ?_, h.sessions⟩
    subst hp
    exact hr

theorem Sealed.perform (h : w.Sealed F) (hF : Attribute.Steady F) {op : Operation}
    (hop : w.Admits F op) : (w.perform op).Sealed F := by
  cases op with
  | request r => exact h.serve hF hop
  | start x name => exact h.withSession (Blueprint.orderly_new x name)
  | load name =>
    rw [Workspace.perform]
    split
    next b hb => exact h.withSession (orderly_stored h hb)
    next => exact h
  | loadBy x =>
    rw [Workspace.perform]
    split
    next b hb =>
      obtain ⟨name, hname⟩ := SortedMap.mem_values_iff.1 (List.mem_of_find?_eq_some hb)
      exact h.withSession (orderly_stored h hname)
    next => exact h
  | step i t => exact h.modify i fun b hb => hb.step hF hop
  | apply i => exact h.apply hF i
  | create i =>
    rw [Workspace.perform]
    split
    next b hb => exact h.onStore hF (h.sessions b (List.mem_of_getElem? hb)).definitions
    next => exact h
  | replace i =>
    rw [Workspace.perform]
    split
    next b hb => exact h.onStore hF (h.sessions b (List.mem_of_getElem? hb)).definitions
    next => exact h
  | toStore r _ => exact h.onStore hF hop

theorem Sealed.performAll (h : w.Sealed F) (hF : Attribute.Steady F) {ops : List Operation}
    (hops : w.Admissible F ops) : (w.performAll ops).Sealed F := by
  induction ops generalizing w with
  | nil => exact h
  | cons op ops ih => exact ih (h.perform hF hops.1) hops.2

theorem sealed_fresh (database : DatabaseId) {capacity : Nat} (h : 0 < capacity) (naming : Naming)
    (resolution : ResolutionConfig) : (fresh database capacity h naming resolution).Sealed F where
  store := Store.sealed_empty database
  sessions := by simp [fresh]

end Workspace

end ChronicleMeta
