import ChronicleMeta.Proofs.Database.Operation

/-!
The edit mode of a schema from its beginning on, through whatever sessions it has and whatever
databases it is saved to.
-/

namespace ChronicleMeta.Blueprint

/-- A schema that is new, or one loaded from a store as any operations have left it. -/
inductive Begun : Blueprint → Prop
  | new (surrogate : Surrogate) (name : String) : Begun { surrogate, name }
  | loaded {database : DatabaseId} {capacity : Nat} (h : 0 < capacity) {naming : Naming}
      {resolution : ResolutionConfig} {ops : List Workspace.Operation}
      (hops :
        (Workspace.fresh database capacity h naming resolution).Admissible (fun _ => True) ops)
      {name : String} {b : Blueprint}
      (hb : ((Workspace.fresh database capacity h naming resolution).performAll
        ops).database.store.schema? name = some b) : Begun b

theorem Begun.orderly {b : Blueprint} (h : b.Begun) : b.Orderly fun _ => True := by
  cases h with
  | new surrogate name => exact orderly_new surrogate name
  | loaded h hops hb =>
    have hsealed := (Workspace.sealed_fresh _ h _ _).performAll Attribute.steady_true hops
    exact Workspace.orderly_stored hsealed hb

/-- Whatever is asked of a schema, in session or not, and whatever database it is saved to: its base
and its definitions are not both recorded as changed. Outside a session it is at rest, every request
but to open a session is refused, and so is saving. Saving to any database fails, and then both the
schema and the store are as they were; or it succeeds, and the schema is committed and closed and
stored under its name just as it is, with the base and the definitions of the session. -/
theorem editMode_run {b₀ : Blueprint} (hb₀ : b₀.Begun) {ss : List Step}
    (hss : ∀ t ∈ ss, t.Seals fun _ => True) :
    let b := b₀.steps ss
    ¬(b.changes.base ∧ b.changes.structural) ∧
    (b.editing = false → b.AtRest ∧ (∀ r, r ≠ .edit → b.answer r = .fail b (.notEditable b.label)) ∧
      ∀ db : Database, db.saveSession b = .fail (db, b) (.error (.notEditable b.label))) ∧
    ∀ db : Database,
      (∃ e db', db'.store = db.store ∧ db.saveSession b = .fail (db', b) e) ∨
        ∃ db' b', db.saveSession b = .ok (db', b') () ∧ Database.Saved db'.store b b' ∧
          b'.editing = false ∧ b'.AtRest := by
  intro b
  have horderly : b.Orderly fun _ => True := hb₀.orderly.steps Attribute.steady_true hss
  refine ⟨horderly.exclusive, fun hclosed => ?_, fun db => ?_⟩
  · exact ⟨horderly.atRest hclosed, fun r hr => answer_of_not_editing hclosed hr,
      fun db => db.saveSession_of_not_editing hclosed⟩
  · obtain hfail | ⟨db', b', -, hs, hsaved⟩ := db.saveSession_cases b
    · exact .inl hfail
    · obtain ⟨horderly', hclosed⟩ := horderly.of_saved Attribute.steady_true hsaved
      exact .inr ⟨db', b', hs, hsaved, hclosed, horderly'.atRest hclosed⟩

def sampleDatabase : Database := .fresh ⟨1⟩ 1 Nat.one_pos {} {}

/-- A schema gets an attribute and a series with one, is saved, and then opened again to set the
value of the latter. -/
def sampleSteps : List Step := [
  .request (.addAttribute { number := 1 }), .request (.addSeries { number := 1 }),
  .request (.addSeriesAttribute 1 { number := 4 }), .save sampleDatabase,
  .request (.addAttribute { number := 2 }), .request .edit,
  .request (.setSeriesAttributeValue 1 4 (some (.text "x")))]

/-- After the first five steps the schema is closed, and the fifth has been refused; after all of
them the value is the one change that is recorded. -/
theorem editMode_run_sample :
    let new : Blueprint := { surrogate := .pending ⟨1⟩ .schema, name := "s" }
    new.Begun ∧ (∀ t ∈ sampleSteps, t.Seals fun _ => True) ∧
      (new.steps (sampleSteps.take 5)).editing = false ∧ (new.steps (sampleSteps.take 5)).AtRest ∧
      (new.steps (sampleSteps.take 5)).definitions.attributes.numbers = [1] ∧
      (new.steps sampleSteps).changes = { values := true } ∧
      ¬((new.steps sampleSteps).changes.base ∧ (new.steps sampleSteps).changes.structural) := by
  intro new
  have hnew : new.Begun := .new _ _
  have hseals : ∀ t ∈ sampleSteps, t.Seals fun _ => True := by
    simp [sampleSteps, Step.Seals, Request.Seals, Series.sealed_new]
  have hclosed : (new.steps (sampleSteps.take 5)).editing = false := by decide +kernel
  have hrest := editMode_run hnew fun t ht => hseals t (List.mem_of_mem_take (i := 5) ht)
  have hrun := editMode_run hnew hseals
  refine ⟨hnew, hseals, hclosed, (hrest.2.1 hclosed).1, ?_, ?_, hrun.1⟩ <;> decide +kernel

end ChronicleMeta.Blueprint
