import ChronicleMeta.Proofs.Database.Operation

/-!
What a request to a workspace does to the store. It leaves it alone, or it saves the schema in a session,
or it is a request to the database.
-/

namespace ChronicleMeta

namespace Database

variable {db : Database} {b b' : Blueprint}

theorem store_updateSchema_of_error {e : Failure} (h : (db.updateSchema b).result = .error e) :
    (db.updateSchema b).state.store = db.store := by
  obtain ⟨e, hs⟩ | hs := db.updateSchema_eq_save b
  · rw [hs]
    rfl
  · rw [hs] at h ⊢
    obtain ⟨e, db', hstore, hs⟩ | ⟨db', b', -, hs, -⟩ := save_cases db b
    · rw [hs]
      exact hstore
    · rw [hs] at h
      cases h

/-- A schema that is saved is stored as a new one or in the place of another. -/
theorem saved_of_updateSchema (h : (db.updateSchema b).result = .ok b') :
    Saved (db.updateSchema b).state.store b b' ∧
      ((db.updateSchema b).state.store = (db.store.createSchema b).state ∨
        (db.updateSchema b).state.store = (db.store.updateSchema b).state) := by
  obtain ⟨e, hs⟩ | hs := db.updateSchema_eq_save b
  · rw [hs] at h
    cases h
  · rw [hs] at h ⊢
    obtain ⟨e, db', -, hs⟩ | ⟨db', b'', -, hs, hsaved, hstore⟩ := save_cases db b
    · rw [hs] at h
      cases h
    · rw [hs] at h ⊢
      obtain rfl := Except.ok.inj h
      exact ⟨hsaved, hstore⟩

end Database

namespace Workspace

variable {w : Workspace} {r : Request} {b b' : Blueprint}

/-- The request saves the schema in a session, and succeeds. -/
def Saves (w : Workspace) (r : Request) (b : Blueprint) : Prop :=
  ∃ i b', r = .save i ∧ w.sessions[i]? = some b ∧ (w.database.updateSchema b).result = .ok b'

theorem Saves.unique (h : w.Saves r b) (h' : w.Saves r b') : b = b' := by
  obtain ⟨i, _, rfl, hb, -⟩ := h
  obtain ⟨j, _, hr, hb', -⟩ := h'
  obtain rfl : i = j := Request.save.inj hr
  exact Option.some.inj (hb.symm.trans hb')

theorem Saves.mem_sessions (h : w.Saves r b) : b ∈ w.sessions := by
  obtain ⟨i, _, -, hb, -⟩ := h
  exact List.mem_of_getElem? hb

theorem database_save (w : Workspace) (i : Nat) {b : Blueprint} (hb : w.sessions[i]? = some b) :
    (w.save i).database = (w.database.updateSchema b).state := by
  rw [Workspace.save, hb]
  dsimp only
  split <;> rfl

/-- All that a request does to the database: what is permitted may change, or it is a request to the
database. -/
theorem database_serve (w : Workspace) (r : Request) :
    (∃ granted, (w.serve r).database = { w.database with granted }) ∨
      ∃ r', (w.serve r).database = (w.database.serve r').state := by
  cases r with
  | permit granted => exact .inl ⟨granted, rfl⟩
  | save i =>
    cases hb : w.sessions[i]? with
    | none => exact .inl ⟨w.database.granted, by rw [serve, Workspace.save, hb]⟩
    | some b => exact .inr ⟨.updateSchema b, w.database_save i hb⟩
  | toDatabase r h => exact .inr ⟨r, rfl⟩
  | editSchema name =>
    refine .inl ⟨w.database.granted, ?_⟩
    rw [serve]
    split <;> rfl
  | copySession i =>
    refine .inl ⟨w.database.granted, ?_⟩
    rw [serve]
    split <;> rfl
  | _ => exact .inl ⟨w.database.granted, rfl⟩

theorem not_saves (hr : ∀ i, r ≠ .save i) (b : Blueprint) : ¬w.Saves r b :=
  fun ⟨i, _, hsave, _⟩ => hr i hsave

/-- All that a request does to the store. -/
theorem store_serve (w : Workspace) (r : Request) :
    (∃ b, w.Saves r b ∧ (w.serve r).database = (w.database.updateSchema b).state) ∨
      (∀ b, ¬w.Saves r b) ∧ ((w.serve r).database.store = w.database.store ∨
        ∃ r' h, r = .toDatabase r' h ∧ (w.serve r).database = (w.database.serve r').state) := by
  cases r with
  | save i =>
    cases hb : w.sessions[i]? with
    | none =>
      refine .inr ⟨?_, .inl (by rw [serve, Workspace.save, hb])⟩
      rintro b ⟨j, _, hr, hb', -⟩
      obtain rfl : i = j := Request.save.inj hr
      cases hb.symm.trans hb'
    | some b =>
      have hs : (w.serve (.save i)).database = (w.database.updateSchema b).state :=
        w.database_save i hb
      cases hok : (w.database.updateSchema b).result with
      | ok b' => exact .inl ⟨b, ⟨i, b', rfl, hb, hok⟩, hs⟩
      | error e =>
        refine .inr ⟨?_, .inl ?_⟩
        · rintro b₁ ⟨j, b', hr, hb₁, hok'⟩
          obtain rfl : i = j := Request.save.inj hr
          obtain rfl := Option.some.inj (hb.symm.trans hb₁)
          cases hok.symm.trans hok'
        · rw [hs, Database.store_updateSchema_of_error hok]
  | toDatabase r h => exact .inr ⟨not_saves (fun _ h => by cases h), .inr ⟨r, h, rfl, rfl⟩⟩
  | editSchema name =>
    refine .inr ⟨not_saves (fun _ h => by cases h), .inl ?_⟩
    rw [serve]
    split <;> rfl
  | copySession i =>
    refine .inr ⟨not_saves (fun _ h => by cases h), .inl ?_⟩
    rw [serve]
    split <;> rfl
  | _ => exact .inr ⟨not_saves (fun _ h => by cases h), .inl rfl⟩

end Workspace

end ChronicleMeta
