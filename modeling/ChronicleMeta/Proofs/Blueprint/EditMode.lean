import ChronicleMeta.Proofs.Blueprint.Effect
import ChronicleMeta.Proofs.Sealed
import ChronicleMeta.Proofs.Store.Sound

/-!
The edit mode of a schema. It is kept in several places: in the schema, in the edit buffers of its
containers and in every definition, and once more in each series. A schema that is saved is closed
twice, as it is stored and in its session, and both are then the same.
-/

namespace ChronicleMeta

variable {F : Attribute → Prop}

namespace Blueprint

/-- Whether the attributes that a request brings in have the property. The committed attributes of a
series that it brings in are frozen, as those of any series are. -/
def Request.Seals (F : Attribute → Prop) : Request → Prop
  | .addAttribute a | .addSeriesAttribute _ a => F a
  | .editAttribute _ f => ∀ a u b, F a → f a = .ok (u, b) → F b
  | .addSeries x => x.Sealed F
  | .editSeries _ f => ∀ x u y, Series.Sealed F x → f x = .ok (u, y) → y.Sealed F
  | _ => True

/-- Whether the attributes that a request brings into series have the property. Those with reserved
numbers are not added. -/
def Request.SealsSeries (F : Attribute → Prop) : Request → Prop
  | .addSeriesAttribute _ a => Builtin.firstCustom ≤ a.number → F a
  | .addSeries x => x.Sealed F
  | .editSeries _ f => ∀ x u y, Series.Sealed F x → f x = .ok (u, y) → y.Sealed F
  | _ => True

/-- A schema whose attributes have the property. What it has committed is frozen, and outside a
session nothing is recorded and nothing left uncommitted. -/
structure Orderly (F : Attribute → Prop) (b : Blueprint) : Prop where
  definitions : b.definitions.Sealed F
  exclusive : ¬(b.changes.base ∧ b.changes.structural)
  unrecorded : b.editing = false → b.changes = {}
  resting : b.editing = false → b.definitions.Resting

/-- Nothing is recorded and nothing is being changed: there is no edit buffer, and all definitions
are frozen, those within series too. -/
structure AtRest (b : Blueprint) : Prop where
  changes_eq : b.changes = {}
  resting : b.definitions.Resting
  attributes : ∀ a ∈ b.definitions.attributes.components, a.editable = false
  series : ∀ x ∈ b.definitions.series.components, x.editable = false ∧ x.attributes.buffer = none ∧
    ∀ a ∈ x.attributes.components, a.editable = false

variable {b b' : Blueprint} {d : Definitions} {r : Request}

theorem sealed_series_revise (hF : Attribute.Steady F)
    (h : d.series.Sealed (Series.Settled F) (Series.Sealed F)) (hr : r.SealsSeries F) :
    (r.revise d).series.Sealed (Series.Settled F) (Series.Sealed F) := by
  have hpass := Series.passes hF
  -- A change within a series that fails is not made.
  have hseries : ∀ {α : Type} (n : UInt32) (act : Series → Edited Series α),
      (∀ x, Series.Sealed F x → (act x).state.Sealed F) →
      (d.series.editComponent n fun x => (act x).commit).state.Sealed (Series.Settled F)
        (Series.Sealed F) := by
    intro α n act hact
    refine h.editComponent hpass n fun x u y hx hy => ?_
    obtain ⟨-, rfl⟩ := Outcome.commit_eq_ok_iff.1 hy
    exact hact x hx
  cases r with
  | addSeries x => exact h.serve hpass (r := .add x) hr
  | deleteSeries n => exact h.serve hpass (r := .delete n) trivial
  | eraseSeries n => exact h.serve hpass (r := .erase n) trivial
  | editSeries n f => exact h.editComponent hpass n hr
  | addSeriesAttribute series a => exact hseries series _ fun x hx => hx.addAttribute hF hr
  | deleteSeriesAttribute series n => exact hseries series _ fun x hx => hx.deleteAttribute hF n
  | eraseSeriesAttribute series n => exact hseries series _ fun x hx => hx.eraseAttribute hF n
  | setSeriesAttributeValue series n v =>
    exact hseries series _ fun x hx => hx.editAttribute hF n fun a u b ha hb => hF.map_setValue ha hb
  | _ => exact h

theorem Request.Seals.series (hr : r.Seals F) : r.SealsSeries F := by
  cases r with
  | addSeriesAttribute series a => exact fun _ => hr
  | addSeries x => exact hr
  | editSeries n f => exact hr
  | _ => trivial

theorem sealed_revise (hF : Attribute.Steady F) (h : d.Sealed F) (hr : r.Seals F) :
    (r.revise d).Sealed F := by
  have hpass := Attribute.passes hF
  refine ⟨?_, sealed_series_revise hF h.series hr.series⟩
  cases r with
  | addAttribute a => exact h.attributes.serve hpass (r := .add a) (hF.editable a true hr)
  | deleteAttribute n => exact h.attributes.serve hpass (r := .delete n) trivial
  | eraseAttribute n => exact h.attributes.serve hpass (r := .erase n) trivial
  | setAttributeValue n v =>
    exact h.attributes.editComponent hpass n fun a u b ha hb => hF.map_setValue ha hb
  | editAttribute n f => exact h.attributes.editComponent hpass n hr
  | _ => exact h.attributes

theorem orderly_new (x : Surrogate) (name : String) : Orderly F { surrogate := x, name } where
  definitions := Definitions.sealed_empty
  exclusive := by simp
  unrecorded _ := rfl
  resting _ := ⟨rfl, rfl⟩

theorem Orderly.edit (h : b.Orderly F) : b.edit.Orderly F where
  definitions := h.definitions
  exclusive := h.exclusive
  unrecorded := nofun
  resting := nofun

theorem orderly_close (hF : Attribute.Steady F) (h : b.definitions.Sealed F) :
    b.close.Orderly F where
  definitions := h.consolidate hF
  exclusive := by simp [close]
  unrecorded _ := rfl
  resting _ := Definitions.resting_consolidate b.definitions

theorem Orderly.serve (h : b.Orderly F) (hF : Attribute.Steady F) (hr : r.Seals F) :
    (b.serve r).Orderly F := by
  have heffect := effect_serve b r
  generalize b.serve r = b' at heffect
  cases heffect with
  | refused => exact h
  | opened => exact h.edit
  | rebased _ hediting hstructural =>
    refine ⟨h.definitions, by simp [hstructural], fun hclosed => ?_, h.resting⟩
    cases hediting.symm.trans hclosed
  | valued _ hediting =>
    have hclosed : ¬b.editing = false := by simp [hediting]
    exact ⟨sealed_revise hF h.definitions hr, h.exclusive, fun hc => absurd hc hclosed,
      fun hc => absurd hc hclosed⟩
  | restructured hediting hbase =>
    have hclosed : ¬b.editing = false := by simp [hediting]
    exact ⟨sealed_revise hF h.definitions hr, by simp [hbase], fun hc => absurd hc hclosed,
      fun hc => absurd hc hclosed⟩

theorem Orderly.atRest (h : b.Orderly F) (hclosed : b.editing = false) : b.AtRest where
  changes_eq := h.unrecorded hclosed
  resting := h.resting hclosed
  attributes a ha := (h.definitions.settled_attributes (h.resting hclosed) a ha).editable_eq
  series x hx := by
    have hfrozen : x.Frozen := (h.definitions.settled_series (h.resting hclosed) x hx).frozen
    exact ⟨hfrozen.editable_eq, hfrozen.buffer_eq, hfrozen.attributes⟩

end Blueprint

namespace Database

/-- Saves a session, as `save`, and tells at each step what is left of the schema in the session. -/
def saveSession (db : Database) (b : Blueprint) : Outcome Failure (Database × Blueprint) Unit :=
  let checked : Except Error (List Blueprint) := do
    b.ensureEditing
    b.chain db.store.source ({} : ResolutionConfig).maxDepth
  match checked with
  | .error e => .fail (db, b) (.error e)
  | .ok _ =>
    let stored : Outcome Failure (Database × Blueprint) Unit :=
      if b.surrogate.isPending then
        ((db.onStore (·.createSchema b)).inState (·, b)).andThen fun id (db, b) =>
          match b.upgrade id with
          | .ok b => .ok (db, b) ()
          | .error e => .fail (db, b) (.error e)
      else (db.clearCache.onStore (·.updateSchema b)).inState (·, b)
    stored.andThen fun () (db, b) => .ok (db, b.close) ()

/-- A session that is saved goes on with what is given, and one that is not stays as it was. -/
theorem saveSession_eq (db : Database) (b : Blueprint) :
    db.saveSession b = match (db.save b).result with
      | .ok b' => .ok ((db.save b).state, b') ()
      | .error e => .fail ((db.save b).state, b) e := by
  unfold saveSession save
  dsimp only
  generalize (do b.ensureEditing; b.chain db.store.source ({} : ResolutionConfig).maxDepth :
    Except Error (List Blueprint)) = checked
  cases checked with
  | error e => rfl
  | ok chain =>
    -- A new schema gets its id from the store, and another one keeps what it has.
    cases b.surrogate.isPending with
    | true =>
      simp only [if_true, whenOk, Failure.ofError, Except.mapError]
      obtain ⟨result, db'⟩ := db.onStore (·.createSchema b)
      cases result with
      | error e => rfl
      | ok id =>
        simp only [Outcome.inState, Outcome.andThen]
        cases b.upgrade id <;> rfl
    | false =>
      simp only [Bool.false_eq_true, if_false, whenOk, Failure.ofError, Except.mapError]
      obtain ⟨result, db'⟩ := db.clearCache.onStore (·.updateSchema b)
      cases result <;> rfl

/-- The schema `b'` is `b` as saved to the store: committed and closed, with nothing else changed,
and as it is stored. -/
structure Saved (s : Store) (b b' : Blueprint) : Prop where
  committed : b'.surrogate.isPending = false
  surrogate_eq : b.surrogate.isPending = false → b'.surrogate = b.surrogate
  closed : b' = Blueprint.close { b with surrogate := b'.surrogate }
  stored : s.schemas.get? b.name = some b'

/-- All that saving can do: to fail and leave the store as it was, or to store the schema as it then
is in its session. -/
theorem save_cases (db : Database) (b : Blueprint) :
    (∃ e db', db'.store = db.store ∧ db.save b = .fail db' e) ∨
      ∃ db' b', b.editing ∧ db.save b = .ok db' b' ∧ Saved db'.store b b' ∧
        (db'.store = (db.store.createSchema b).state ∨
          db'.store = (db.store.updateSchema b).state) := by
  unfold save
  dsimp only
  cases hchecked : (do b.ensureEditing; b.chain db.store.source ({} : ResolutionConfig).maxDepth :
    Except Error (List Blueprint)) with
  | error e => exact .inl ⟨_, db, rfl, rfl⟩
  | ok chain =>
    obtain ⟨_, hensure, -⟩ := bind_eq_ok_iff.1 hchecked
    have hediting : b.editing := Blueprint.editing_of_ensureEditing hensure
    simp only [whenOk, Failure.ofError, Except.mapError]
    cases hpending : b.surrogate.isPending with
    | true =>
      rw [if_pos rfl]
      obtain ⟨e, hs⟩ | ⟨stored, s', hup, hs, hschemas⟩ := db.store.createSchema_upgrade b
      · exact .inl ⟨.error e, db.withStore db.store, rfl, by simp only [onStore, hs]; rfl⟩
      · refine .inr ⟨db.withStore s', stored.close, hediting, ?_, ?_, .inl ?_⟩
        · simp only [onStore, hs, Outcome.ok, Outcome.mapError, Outcome.inState, Outcome.andThen,
            Except.mapError, hup]
        · obtain ⟨x, hx, rfl⟩ := map_eq_ok_iff.1 hup
          obtain ⟨-, -, rfl⟩ := Surrogate.upgrade_eq_ok hx
          refine ⟨rfl, fun hcommitted => ?_, rfl, ?_⟩
          · cases hpending.symm.trans hcommitted
          · rw [withStore, hschemas]
            exact SortedMap.get?_insert_self _ _ _
        · rw [hs]
          rfl
    | false =>
      rw [if_neg (by simp)]
      obtain ⟨e, hs⟩ | ⟨old, -, -, hs⟩ := db.store.updateSchema_cases b
      · exact .inl ⟨.error e, db.clearCache.withStore db.store, rfl, by
          simp only [onStore, clearCache, hs]; rfl⟩
      · refine .inr ⟨db.clearCache.withStore (db.store.updateSchema b).state, b.close, hediting, ?_,
          ⟨hpending, fun _ => rfl, rfl, ?_⟩, .inr rfl⟩
        · simp only [onStore, clearCache, hs]
          rfl
        · rw [hs]
          exact SortedMap.get?_insert_self _ _ _

theorem saveSession_cases (db : Database) (b : Blueprint) :
    (∃ e db', db'.store = db.store ∧ db.saveSession b = .fail (db', b) e) ∨
      ∃ db' b', b.editing ∧ db.saveSession b = .ok (db', b') () ∧ Saved db'.store b b' := by
  rw [saveSession_eq]
  obtain ⟨e, db', hstore, hs⟩ | ⟨db', b', hediting, hs, hsaved, -⟩ := save_cases db b
  · rw [hs]
    exact .inl ⟨e, db', hstore, rfl⟩
  · rw [hs]
    exact .inr ⟨db', b', hediting, rfl, hsaved⟩

theorem saveSession_of_not_editing (db : Database) {b : Blueprint} (h : b.editing = false) :
    db.saveSession b = .fail (db, b) (.error (.notEditable b.label)) := by
  have hensure : b.ensureEditing = .error (.notEditable b.label) := by
    simp [Blueprint.ensureEditing, h]
  unfold saveSession
  rw [hensure]
  rfl

end Database

namespace Blueprint

/-- A step of a session: a request, or to save it to a database in whatever state. -/
inductive Step where
  | request (r : Request)
  | save (db : Database)

/-- The schema after the step, whether it succeeds or fails. -/
def step (b : Blueprint) : Step → Blueprint
  | .request r => b.serve r
  | .save db => (db.saveSession b).state.2

/-- Whether the attributes that a step brings in have the property. -/
def Step.Seals (F : Attribute → Prop) : Step → Prop
  | .request r => r.Seals F
  | .save _ => True

/-- The schema after the steps. -/
def steps (b : Blueprint) (ss : List Step) : Blueprint := ss.foldl step b

variable {b b' : Blueprint} {s : Store}

theorem Orderly.of_saved (h : b.Orderly F) (hF : Attribute.Steady F) (hb' : Database.Saved s b b') :
    b'.Orderly F ∧ b'.editing = false := by
  have hclose : b'.Orderly F := by
    rw [hb'.closed]
    exact orderly_close hF h.definitions
  exact ⟨hclose, by rw [hb'.closed]; rfl⟩

theorem Orderly.step (h : b.Orderly F) (hF : Attribute.Steady F) {t : Step} (ht : t.Seals F) :
    (b.step t).Orderly F := by
  cases t with
  | request r => exact h.serve hF ht
  | save db =>
    obtain ⟨e, db', -, hs⟩ | ⟨db', b', -, hs, hsaved⟩ := db.saveSession_cases b
    · rw [Blueprint.step, hs]
      exact h
    · rw [Blueprint.step, hs]
      exact (h.of_saved hF hsaved).1

theorem Orderly.steps (h : b.Orderly F) (hF : Attribute.Steady F) {ss : List Step}
    (hss : ∀ t ∈ ss, t.Seals F) : (b.steps ss).Orderly F := by
  induction ss generalizing b with
  | nil => exact h
  | cons t ss ih =>
    obtain ⟨ht, hss⟩ := List.forall_mem_cons.1 hss
    exact ih (h.step hF ht) hss

end Blueprint

end ChronicleMeta
