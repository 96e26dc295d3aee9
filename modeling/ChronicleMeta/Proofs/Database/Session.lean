import ChronicleMeta.Blueprint.Edit
import ChronicleMeta.Proofs.Database.Request
import ChronicleMeta.Proofs.Outcome

/-!
Sessions of schemas beside the database they are saved to. Each session begins with a new schema or
with a stored one, and what happens to the database or to other sessions in the meantime does not
reach it.
-/

namespace ChronicleMeta

namespace Blueprint

inductive Request where
  | edit
  | setBase (base : Option String)
  | addAttribute (a : Attribute)
  | deleteAttribute (n : UInt32)
  | eraseAttribute (n : UInt32)
  | setAttributeValue (n : UInt32) (v : Option Value)
  | editAttribute {α : Type} (n : UInt32) (f : Attribute → Except Error (α × Attribute))
  | addSeries (x : Series)
  | deleteSeries (n : UInt32)
  | eraseSeries (n : UInt32)
  | editSeries {α : Type} (n : UInt32) (f : Series → Except Error (α × Series))
  | addSeriesAttribute (series : UInt32) (a : Attribute)
  | deleteSeriesAttribute (series n : UInt32)
  | eraseSeriesAttribute (series n : UInt32)
  | setSeriesAttributeValue (series n : UInt32) (v : Option Value)

def serve (b : Blueprint) : Request → Blueprint
  | .edit => b.edit
  | .setBase base =>
    match b.setBase base with
    | .ok b => b
    | .error _ => b
  | .addAttribute a => (b.addAttribute a).state
  | .deleteAttribute n => (b.deleteAttribute n).state
  | .eraseAttribute n => (b.eraseAttribute n).state
  | .setAttributeValue n v => (b.setAttributeValue n v).state
  | .editAttribute n f => (b.editAttribute n f).state
  | .addSeries x => (b.addSeries x).state
  | .deleteSeries n => (b.deleteSeries n).state
  | .eraseSeries n => (b.eraseSeries n).state
  | .editSeries n f => (b.editSeries n f).state
  | .addSeriesAttribute series a => (b.addSeriesAttribute series a).state
  | .deleteSeriesAttribute series n => (b.deleteSeriesAttribute series n).state
  | .eraseSeriesAttribute series n => (b.eraseSeriesAttribute series n).state
  | .setSeriesAttributeValue series n v => (b.setSeriesAttributeValue series n v).state

/-- A schema is the same one, with other contents. -/
structure Continues (b b' : Blueprint) : Prop where
  surrogate_eq : b'.surrogate = b.surrogate
  name_eq : b'.name = b.name

variable {α : Type} {b : Blueprint}

theorem continues_refl (b : Blueprint) : b.Continues b := ⟨rfl, rfl⟩

theorem continues_whenRecorded {recorded : Except Error Blueprint}
    {act : Blueprint → Edited Blueprint α} (hrecorded : ∀ b', recorded = .ok b' → b.Continues b')
    (hact : ∀ b' : Blueprint, b'.Continues (act b').state) :
    b.Continues (b.whenRecorded recorded act).state := by
  cases recorded with
  | error e => exact continues_refl b
  | ok b' =>
    have h := hrecorded b' rfl
    exact ⟨(hact b').surrogate_eq.trans h.surrogate_eq, (hact b').name_eq.trans h.name_eq⟩

theorem continues_recordStructural {b' : Blueprint} (h : b.recordStructural = .ok b') :
    b.Continues b' := by
  obtain ⟨_, -, h⟩ := bind_eq_ok_iff.1 h
  split_ifs at h
  · cases h
  · obtain rfl := pure_eq_ok_iff.1 h
    exact ⟨rfl, rfl⟩

theorem continues_recordValues {b' : Blueprint} (h : b.recordValues = .ok b') : b.Continues b' := by
  obtain ⟨_, -, h⟩ := bind_eq_ok_iff.1 h
  obtain rfl := pure_eq_ok_iff.1 h
  exact ⟨rfl, rfl⟩

theorem continues_setBase {b' : Blueprint} {base : Option String} (h : b.setBase base = .ok b') :
    b.Continues b' := by
  obtain ⟨_, -, h⟩ := bind_eq_ok_iff.1 h
  by_cases hsame : base = b.base
  · rw [if_pos hsame] at h
    exact pure_eq_ok_iff.1 h ▸ continues_refl b
  · rw [if_neg hsame] at h
    dsimp only at h
    split_ifs at h
    · cases h
    · cases h
    · cases h
    · obtain rfl := pure_eq_ok_iff.1 h
      exact ⟨rfl, rfl⟩

theorem continues_onAttributes (b : Blueprint)
    (act : Container Attribute → Edited (Container Attribute) α) :
    b.Continues (b.onAttributes act).state :=
  continues_whenRecorded (fun _ => continues_recordStructural) fun _ => ⟨rfl, rfl⟩

theorem continues_onSeries (b : Blueprint) (act : Container Series → Edited (Container Series) α) :
    b.Continues (b.onSeries act).state :=
  continues_whenRecorded (fun _ => continues_recordStructural) fun _ => ⟨rfl, rfl⟩

theorem continues_editSeries (b : Blueprint) (n : UInt32) (f : Series → Except Error (α × Series)) :
    b.Continues (b.editSeries n f).state :=
  continues_onSeries b (·.editComponent n f)

theorem state_requireFree {σ : Type} (container : String) (n : UInt32) (r : Edited σ Bool) :
    (requireFree container n r).state = r.state := by
  unfold requireFree Outcome.andThen
  split
  next added _ => cases added <;> rfl
  next => rfl

/-- No request to a session changes what the schema is stored under or its name. -/
theorem continues_serve (b : Blueprint) (r : Request) : b.Continues (b.serve r) := by
  cases r with
  | edit => exact ⟨rfl, rfl⟩
  | setBase base =>
    rw [serve]
    cases h : b.setBase base with
    | ok b' => exact continues_setBase h
    | error e => exact continues_refl b
  | addAttribute a =>
    rw [serve, addAttribute, state_requireFree]
    exact continues_onAttributes b _
  | deleteAttribute n => exact continues_onAttributes b _
  | eraseAttribute n => exact continues_onAttributes b _
  | setAttributeValue n v =>
    exact continues_whenRecorded (fun _ => continues_recordValues) fun _ => ⟨rfl, rfl⟩
  | editAttribute n f => exact continues_onAttributes b (·.editComponent n f)
  | addSeries x =>
    rw [serve, addSeries, state_requireFree]
    exact continues_onSeries b _
  | deleteSeries n => exact continues_onSeries b _
  | eraseSeries n => exact continues_onSeries b _
  | editSeries n f => exact continues_editSeries b n f
  | addSeriesAttribute series a =>
    rw [serve, addSeriesAttribute, state_requireFree]
    exact continues_editSeries b series _
  | deleteSeriesAttribute series n => exact continues_editSeries b series _
  | eraseSeriesAttribute series n => exact continues_editSeries b series _
  | setSeriesAttributeValue series n v =>
    exact continues_whenRecorded (fun _ => continues_recordValues) fun _ => ⟨rfl, rfl⟩

end Blueprint

structure Workspace where
  database : Database
  sessions : List Blueprint := []

namespace Workspace

/-- A request to a workspace. Sessions are meant by their places in the order in which they have been
begun. Schemas are saved in sessions only. -/
inductive Request where
  | newSchema (name : String)
  | editSchema (name : String)
  | copySession (i : Nat)
  | inSession (i : Nat) (r : Blueprint.Request)
  | save (i : Nat)
  | permit (granted : Permissions)
  | toDatabase (r : Database.Request) (h : ∀ b, r ≠ .updateSchema b)

def withSession (w : Workspace) (b : Blueprint) : Workspace := { w with sessions := w.sessions ++ [b] }

/-- Saves a session. If this succeeds the session goes on with the schema as it has been stored. -/
def save (w : Workspace) (i : Nat) : Workspace :=
  match w.sessions[i]? with
  | none => w
  | some b =>
    let r := w.database.updateSchema b
    match r.result with
    | .ok stored => ⟨r.state, w.sessions.set i stored⟩
    | .error _ => { w with database := r.state }

def serve (w : Workspace) : Request → Workspace
  | .newSchema name => w.withSession (w.database.newSchema name)
  | .editSchema name =>
    match w.database.editSchema name with
    | .ok b => w.withSession b
    | .error _ => w
  | .copySession i =>
    match w.sessions[i]? with
    | some b => w.withSession b
    | none => w
  | .inSession i r => { w with sessions := w.sessions.modify i (·.serve r) }
  | .save i => w.save i
  | .permit granted => { w with database := { w.database with granted } }
  | .toDatabase r _ => { w with database := (w.database.serve r).state }

def run (w : Workspace) (rs : List Request) : Workspace := rs.foldl serve w

end Workspace

end ChronicleMeta
