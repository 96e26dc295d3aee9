import ChronicleMeta.Proofs.Database.Session

/-!
What a request to a session can do, said once: nothing, or the one change that it is for, with the
kind of the change recorded. Outside a session every change is refused.
-/

namespace ChronicleMeta.Blueprint

/-- Whether the request sets a default value, which every session may do. -/
def Request.setsValue : Request → Bool
  | .setAttributeValue _ _ | .setSeriesAttributeValue _ _ _ => true
  | _ => false

/-- What a request that is recorded makes of the definitions, whether it succeeds or fails. -/
def Request.revise (d : Definitions) : Request → Definitions
  | .edit | .setBase _ => d
  | .addAttribute a => { d with attributes := (d.attributes.add a).state }
  | .deleteAttribute n => { d with attributes := d.attributes.delete n }
  | .eraseAttribute n => { d with attributes := (d.attributes.erase n).state }
  | .setAttributeValue n v =>
    { d with
      attributes := (d.attributes.editComponent n fun a => (a.setValue v).map ((), ·)).state }
  | .editAttribute n f => { d with attributes := (d.attributes.editComponent n f).state }
  | .addSeries x => { d with series := (d.series.add x).state }
  | .deleteSeries n => { d with series := d.series.delete n }
  | .eraseSeries n => { d with series := (d.series.erase n).state }
  | .editSeries n f => { d with series := (d.series.editComponent n f).state }
  | .addSeriesAttribute series a =>
    { d with series := (d.series.editComponent series fun x => (x.addAttribute a).commit).state }
  | .deleteSeriesAttribute series n =>
    { d with series := (d.series.editComponent series fun x => (x.deleteAttribute n).commit).state }
  | .eraseSeriesAttribute series n =>
    { d with series := (d.series.editComponent series fun x => (x.eraseAttribute n).commit).state }
  | .setSeriesAttributeValue series n v =>
    { d with
      series := (d.series.editComponent series fun x =>
        (x.editAttribute n fun a => (a.setValue v).map ((), ·)).commit).state }

/-- The schema `b'` is what the request may leave of `b`. -/
inductive Effect (b : Blueprint) (r : Request) : Blueprint → Prop
  | refused : Effect b r b
  | opened (hr : r = .edit) : Effect b r b.edit
  | rebased {base : Option String} (hr : r = .setBase base) (hediting : b.editing)
      (hstructural : b.changes.structural = false) :
      Effect b r { b with base, changes := { b.changes with base := true } }
  | valued (hr : r.setsValue) (hediting : b.editing) :
      Effect b r { b with
        definitions := r.revise b.definitions, changes := { b.changes with values := true } }
  | restructured (hediting : b.editing) (hbase : b.changes.base = false) :
      Effect b r { b with
        definitions := r.revise b.definitions, changes := { b.changes with structural := true } }

variable {α : Type} {b b' : Blueprint} {r : Request}

theorem editing_of_ensureEditing {u : Unit} (h : b.ensureEditing = .ok u) : b.editing := by
  unfold ensureEditing at h
  split_ifs at h with hediting
  exact hediting

theorem recordStructural_eq_ok (h : b.recordStructural = .ok b') :
    b.editing ∧ b.changes.base = false ∧
      b' = { b with changes := { b.changes with structural := true } } := by
  obtain ⟨_, hediting, h⟩ := bind_eq_ok_iff.1 h
  split_ifs at h with hbase
  · cases h
  · exact ⟨editing_of_ensureEditing hediting, by simpa using hbase, (pure_eq_ok_iff.1 h).symm⟩

theorem recordValues_eq_ok (h : b.recordValues = .ok b') :
    b.editing ∧ b' = { b with changes := { b.changes with values := true } } := by
  obtain ⟨_, hediting, h⟩ := bind_eq_ok_iff.1 h
  exact ⟨editing_of_ensureEditing hediting, (pure_eq_ok_iff.1 h).symm⟩

theorem setBase_eq_ok {base : Option String} (h : b.setBase base = .ok b') :
    b' = b ∨ b.editing ∧ b.changes.structural = false ∧
      b' = { b with base, changes := { b.changes with base := true } } := by
  obtain ⟨_, hediting, h⟩ := bind_eq_ok_iff.1 h
  have hediting := editing_of_ensureEditing hediting
  by_cases hsame : base = b.base
  · rw [if_pos hsame] at h
    exact .inl (pure_eq_ok_iff.1 h).symm
  · rw [if_neg hsame] at h
    dsimp only at h
    split_ifs at h with hstructural
    · cases h
    · cases h
    · cases h
    · exact .inr ⟨hediting, by simpa using hstructural, (pure_eq_ok_iff.1 h).symm⟩

theorem state_require {ε σ : Type} (e : ε) (x : Outcome ε σ (Option α)) :
    (Outcome.require e x).state = x.state := rfl

theorem effect_recordStructural {act : Blueprint → Edited Blueprint α}
    (hact : ∀ c : Blueprint, (act c).state = { c with definitions := r.revise c.definitions }) :
    Effect b r (b.whenRecorded b.recordStructural act).state := by
  unfold whenRecorded
  split
  next => exact .refused
  next b' hb' =>
    obtain ⟨hediting, hbase, rfl⟩ := recordStructural_eq_ok hb'
    rw [hact]
    exact .restructured hediting hbase

theorem effect_recordValues (hr : r.setsValue) {act : Blueprint → Edited Blueprint α}
    (hact : ∀ c : Blueprint, (act c).state = { c with definitions := r.revise c.definitions }) :
    Effect b r (b.whenRecorded b.recordValues act).state := by
  unfold whenRecorded
  split
  next => exact .refused
  next b' hb' =>
    obtain ⟨hediting, rfl⟩ := recordValues_eq_ok hb'
    rw [hact]
    exact .valued hr hediting

/-- All that a request can do to a schema. -/
theorem effect_serve (b : Blueprint) (r : Request) : Effect b r (b.serve r) := by
  cases r with
  | edit => exact .opened rfl
  | setBase base =>
    rw [serve]
    cases hset : b.setBase base with
    | error e => exact .refused
    | ok b' =>
      obtain rfl | ⟨hediting, hstructural, rfl⟩ := setBase_eq_ok hset
      · exact .refused
      · exact .rebased rfl hediting hstructural
  | addAttribute a =>
    rw [serve, addAttribute, state_requireFree]
    exact effect_recordStructural fun _ => rfl
  | deleteAttribute n => exact effect_recordStructural fun _ => rfl
  | eraseAttribute n => exact effect_recordStructural fun _ => rfl
  | setAttributeValue n v => exact effect_recordValues rfl fun _ => rfl
  | editAttribute n f =>
    rw [serve, editAttribute, state_require]
    exact effect_recordStructural fun _ => rfl
  | addSeries x =>
    rw [serve, addSeries, state_requireFree]
    exact effect_recordStructural fun _ => rfl
  | deleteSeries n => exact effect_recordStructural fun _ => rfl
  | eraseSeries n => exact effect_recordStructural fun _ => rfl
  | editSeries n f =>
    rw [serve, editSeries, state_require]
    exact effect_recordStructural fun _ => rfl
  | addSeriesAttribute series a =>
    rw [serve, addSeriesAttribute, state_requireFree, editSeries, state_require]
    exact effect_recordStructural fun _ => rfl
  | deleteSeriesAttribute series n =>
    rw [serve, deleteSeriesAttribute, editSeries, state_require]
    exact effect_recordStructural fun _ => rfl
  | eraseSeriesAttribute series n =>
    rw [serve, eraseSeriesAttribute, editSeries, state_require]
    exact effect_recordStructural fun _ => rfl
  | setSeriesAttributeValue series n v => exact effect_recordValues rfl fun _ => rfl

/-- The answer to the request: whether it has been carried out, and the schema it leaves. -/
def answer (b : Blueprint) : Request → Edited Blueprint Unit
  | .edit => .ok b.edit ()
  | .setBase base => .ofExcept b ((b.setBase base).map ((), ·))
  | .addAttribute a => b.addAttribute a
  | .deleteAttribute n => (b.deleteAttribute n).map fun _ => ()
  | .eraseAttribute n => b.eraseAttribute n
  | .setAttributeValue n v => b.setAttributeValue n v
  | .editAttribute n f => (b.editAttribute n f).map fun _ => ()
  | .addSeries x => b.addSeries x
  | .deleteSeries n => (b.deleteSeries n).map fun _ => ()
  | .eraseSeries n => b.eraseSeries n
  | .editSeries n f => (b.editSeries n f).map fun _ => ()
  | .addSeriesAttribute series a => b.addSeriesAttribute series a
  | .deleteSeriesAttribute series n => (b.deleteSeriesAttribute series n).map fun _ => ()
  | .eraseSeriesAttribute series n => b.eraseSeriesAttribute series n
  | .setSeriesAttributeValue series n v => b.setSeriesAttributeValue series n v

theorem state_answer (b : Blueprint) (r : Request) : (b.answer r).state = b.serve r := by
  cases r with
  | setBase base =>
    rw [answer, serve]
    cases b.setBase base <;> rfl
  | _ => rfl

/-- Outside a session every request but to open one is refused, and nothing changes. -/
theorem answer_of_not_editing (h : b.editing = false) (hr : r ≠ .edit) :
    b.answer r = .fail b (.notEditable b.label) := by
  have hensure : b.ensureEditing = .error (.notEditable b.label) := by simp [ensureEditing, h]
  have hattributes : ∀ {α : Type} (act : Container Attribute → Edited (Container Attribute) α),
      b.onAttributes act = .fail b (.notEditable b.label) := fun act => by
    simp [onAttributes, whenRecorded, recordStructural, hensure]
  have hseries : ∀ {α : Type} (act : Container Series → Edited (Container Series) α),
      b.onSeries act = .fail b (.notEditable b.label) := fun act => by
    simp [onSeries, whenRecorded, recordStructural, hensure]
  have hvalues : ∀ act : Blueprint → Edited Blueprint Unit,
      b.whenRecorded b.recordValues act = .fail b (.notEditable b.label) := fun act => by
    simp [whenRecorded, recordValues, hensure]
  cases r with
  | edit => exact absurd rfl hr
  | setBase base =>
    rw [answer, setBase, hensure]
    rfl
  | addAttribute a => rw [answer, addAttribute, hattributes]; rfl
  | deleteAttribute n => rw [answer, deleteAttribute, hattributes]; rfl
  | eraseAttribute n => rw [answer, eraseAttribute, hattributes]
  | setAttributeValue n v => rw [answer, setAttributeValue, hvalues]
  | editAttribute n f => rw [answer, editAttribute, hattributes]; rfl
  | addSeries x => rw [answer, addSeries, hseries]; rfl
  | deleteSeries n => rw [answer, deleteSeries, hseries]; rfl
  | eraseSeries n => rw [answer, eraseSeries, hseries]
  | editSeries n f => rw [answer, editSeries, hseries]; rfl
  | addSeriesAttribute series a => rw [answer, addSeriesAttribute, editSeries, hseries]; rfl
  | deleteSeriesAttribute series n => rw [answer, deleteSeriesAttribute, editSeries, hseries]; rfl
  | eraseSeriesAttribute series n => rw [answer, eraseSeriesAttribute, editSeries, hseries]; rfl
  | setSeriesAttributeValue series n v => rw [answer, setSeriesAttributeValue, hvalues]

end ChronicleMeta.Blueprint
