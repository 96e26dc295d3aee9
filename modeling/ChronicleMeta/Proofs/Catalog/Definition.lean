import ChronicleMeta.Catalog.Definition
import ChronicleMeta.Proofs.Outcome

/-!
What the definitions of an entry depend on. Every session that may change definitions gets the same
ones from the same database, and of this only the properties count.
-/

namespace ChronicleMeta

def Definitions.addAttribute (d : Definitions) (a : Attribute) : Except Error (Unit × Definitions) :=
  (Blueprint.requireFree "attribute" a.number (d.attributes.add a)).commit.map fun x =>
    (x.1, { d with attributes := x.2 })

def Definitions.addSeries (d : Definitions) (s : Series) : Except Error (Unit × Definitions) :=
  (Blueprint.requireFree "series" s.number (d.series.add s)).commit.map fun x =>
    (x.1, { d with series := x.2 })

namespace Blueprint

/-- The session may change definitions. -/
structure Defines (b : Blueprint) : Prop where
  editing_eq : b.editing = true
  base_eq : b.changes.base = false

/-- The schema with other definitions, as a change of the session. -/
def redefine (b : Blueprint) (d : Definitions) : Blueprint :=
  { b with definitions := d, changes := { b.changes with structural := true } }

variable {b b' c : Blueprint}

theorem Defines.redefine (h : b.Defines) (d : Definitions) : (b.redefine d).Defines :=
  ⟨h.editing_eq, h.base_eq⟩

theorem Defines.recordStructural_eq (h : b.Defines) :
    b.recordStructural = .ok (b.redefine b.definitions) := by
  have hensure : b.ensureEditing = .ok () := by simp [ensureEditing, h.editing_eq]
  simp [recordStructural, hensure, h.base_eq, Blueprint.redefine, pure, Except.pure]

private theorem commit_requireFree {σ : Type} {container : String} {n : UInt32} (r : Edited σ Bool)
    (f : σ → Definitions) :
    (requireFree container n (r.inState fun s => b.redefine (f s))).commit =
      ((requireFree container n r).commit.map fun x => (x.1, f x.2)).map fun x =>
        (x.1, b.redefine x.2) := by
  obtain ⟨result, s⟩ := r
  cases result with
  | error e => rfl
  | ok added => cases added <;> rfl

theorem Defines.commit_addAttribute (h : b.Defines) (a : Attribute) :
    (b.addAttribute a).commit =
      (b.definitions.addAttribute a).map fun x => (x.1, b.redefine x.2) := by
  rw [addAttribute, onAttributes, h.recordStructural_eq]
  exact commit_requireFree _ fun c => { b.definitions with attributes := c }

theorem Defines.commit_addSeries (h : b.Defines) (s : Series) :
    (b.addSeries s).commit =
      (b.definitions.addSeries s).map fun x => (x.1, b.redefine x.2) := by
  rw [addSeries, onSeries, h.recordStructural_eq]
  exact commit_requireFree _ fun c => { b.definitions with series := c }

end Blueprint

open Blueprint

theorem problem_lift_eq_ok_iff {α : Type} {x : Except Error α} {a : α} :
    (liftM x : Except Problem α) = .ok a ↔ x = .ok a := by
  cases x <;> simp [liftM, monadLift, MonadLift.monadLift, Failure.ofError, Except.mapError]

namespace SchemaEntry

variable {α : Type} {db db' : Database} {entry : SchemaEntry} {b b' c : Blueprint}

/-- From the same definitions every session gets the same. -/
def Transfers (f : Blueprint → Except Problem Blueprint) : Prop :=
  ∀ ⦃b b' c : Blueprint⦄, b.Defines → c.Defines → c.definitions = b.definitions → f b = .ok b' →
    ∃ changes, f c = .ok { c with definitions := b'.definitions, changes } ∧
      Defines { c with definitions := b'.definitions, changes }

theorem Transfers.bind {f g : Blueprint → Except Problem Blueprint} (hf : Transfers f)
    (hg : Transfers g) : Transfers fun b => f b >>= g := by
  intro b b' c hb hc hsame h
  obtain ⟨b₁, hb₁, h⟩ := bind_eq_ok_iff.1 h
  -- the session itself goes on as one that may change definitions
  obtain ⟨_, hself, hdefines⟩ := hf hb hb rfl hb₁
  have hdefines : b₁.Defines := (Except.ok.inj (hb₁.symm.trans hself)).symm ▸ hdefines
  obtain ⟨changes, hc₁, hdefines'⟩ := hf hb hc hsame hb₁
  obtain ⟨changes', hrest, hend⟩ := hg hdefines hdefines' rfl h
  exact ⟨changes', bind_eq_ok_iff.2 ⟨_, hc₁, hrest⟩, hend⟩

theorem Transfers.foldlM {f : Blueprint → α → Except Problem Blueprint}
    (hf : ∀ a, Transfers fun b => f b a) (l : List α) : Transfers fun b => l.foldlM f b := by
  induction l with
  | nil =>
    intro b b' c _ hc hsame h
    obtain rfl : b = b' := Except.ok.inj h
    exact ⟨c.changes, by rw [← hsame]; rfl, by rw [← hsame]; exact hc⟩
  | cons a l ih =>
    simp only [List.foldlM_cons]
    exact (hf a).bind ih

/-- An operation that makes definitions of definitions, as a change of the session. -/
theorem transfers_of_commit {β υ : Type} (built : Except Problem β)
    (act : Blueprint → β → Edited Blueprint υ)
    (change : Definitions → β → Except Error (υ × Definitions))
    (hact : ∀ b x, b.Defines →
      (act b x).commit = (change b.definitions x).map fun r => (r.1, b.redefine r.2)) :
    Transfers fun b => do return (← (act b (← built)).commit).2 := by
  intro b b' c hb hc hsame h
  obtain ⟨x, hx, h⟩ := bind_eq_ok_iff.1 h
  obtain ⟨done, hdone, h⟩ := bind_eq_ok_iff.1 h
  rw [problem_lift_eq_ok_iff, hact b x hb, map_eq_ok_iff] at hdone
  obtain ⟨r, hr, rfl⟩ := hdone
  obtain rfl := pure_eq_ok_iff.1 h
  have hdone' : (act c x).commit = .ok (r.1, c.redefine r.2) := by
    rw [hact c x hc, hsame, hr]
    rfl
  exact ⟨_, bind_eq_ok_iff.2 ⟨x, hx, bind_eq_ok_iff.2
    ⟨_, problem_lift_eq_ok_iff.2 hdone', rfl⟩⟩, hc.redefine r.2⟩

theorem transfers_addDefinitions (db : Database) (entry : SchemaEntry) :
    Transfers (entry.addDefinitions db) := by
  have hattribute := fun a : AttributeEntry => transfers_of_commit
    (liftM (a.build db)) Blueprint.addAttribute Definitions.addAttribute
      fun b a hb => hb.commit_addAttribute a
  have hseries := fun s : SeriesEntry => transfers_of_commit
    (s.build db) Blueprint.addSeries Definitions.addSeries fun b s hb => hb.commit_addSeries s
  exact (Transfers.foldlM hattribute _).bind (Transfers.foldlM hseries _)

/-- Of the database only the properties count. -/
theorem addDefinitions_congr (h : ∀ n, db'.property n = db.property n) (entry : SchemaEntry) :
    entry.addDefinitions db' = entry.addDefinitions db := by
  have hattribute : AttributeEntry.build db' = AttributeEntry.build db := by
    funext a
    simp only [AttributeEntry.build, h]
  have hadd : SeriesEntry.addAttribute db' = SeriesEntry.addAttribute db := by
    funext entry s a
    simp only [SeriesEntry.addAttribute, hattribute]
  have hseries : SeriesEntry.build db' = SeriesEntry.build db := by
    funext s
    simp only [SeriesEntry.build, hadd]
  funext b
  simp only [addDefinitions, hattribute, hseries]

end SchemaEntry

end ChronicleMeta
