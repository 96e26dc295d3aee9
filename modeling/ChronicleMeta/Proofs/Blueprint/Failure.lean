import ChronicleMeta.Proofs.Blueprint.Changes
import ChronicleMeta.Proofs.Coincidence

/-!
Requests to a session that fail. They leave the base, the definitions and the look-ups as they are, but
the kind of the change stays recorded. So nothing is to be seen of a failure where a change of that
kind had been recorded before, and otherwise the base cannot be changed any more.
-/

namespace ChronicleMeta.Blueprint

variable {α : Type} {b b' : Blueprint} {r : Request} {e : Error}

/-- The same schema, with edit buffers open or not yet. Of what is recorded only a change of the base
is compared. -/
structure SameContents (b b' : Blueprint) : Prop where
  surrogate_eq : b.surrogate = b'.surrogate
  name_eq : b.name = b'.name
  base_eq : b.base = b'.base
  editing_eq : b.editing = b'.editing
  rebased_eq : b.changes.base = b'.changes.base
  attributes : b.definitions.attributes.Coincides Eq b'.definitions.attributes
  series : b.definitions.series.Coincides Series.Coincides b'.definitions.series

/-- The same schema, with the same recorded but for changes of values. -/
structure Coincides (b b' : Blueprint) : Prop extends SameContents b b' where
  restructured_eq : b.changes.structural = b'.changes.structural

theorem sameContents_refl (b : Blueprint) : b.SameContents b :=
  ⟨rfl, rfl, rfl, rfl, rfl, Container.coincides_refl (fun _ => rfl) _,
    Container.coincides_refl Series.coincides_refl _⟩

theorem Coincides.withAttributes (h : b.Coincides b') {c d : Container Attribute}
    (hcd : c.Coincides Eq d) : (b.withAttributes c).Coincides (b'.withAttributes d) :=
  { h with attributes := hcd }

theorem Coincides.withSeries (h : b.Coincides b') {c d : Container Series}
    (hcd : c.Coincides Series.Coincides d) : (b.withSeries c).Coincides (b'.withSeries d) :=
  { h with series := hcd }

theorem Coincides.ensureEditing_eq (h : b.Coincides b') : b.ensureEditing = b'.ensureEditing := by
  unfold ensureEditing label
  rw [h.editing_eq, h.name_eq]

theorem Coincides.recordStructural (h : b.Coincides b') :
    Together Coincides b.recordStructural b'.recordStructural := by
  unfold Blueprint.recordStructural
  rw [h.ensureEditing_eq, h.rebased_eq, h.name_eq]
  cases b'.ensureEditing with
  | error e => exact .error e
  | ok _ =>
    rw [ok_bind, ok_bind]
    split_ifs
    · exact .error _
    · exact .ok { h with name_eq := rfl, rebased_eq := h.rebased_eq, restructured_eq := rfl }

theorem Coincides.recordValues (h : b.Coincides b') :
    Together Coincides b.recordValues b'.recordValues := by
  unfold Blueprint.recordValues
  rw [h.ensureEditing_eq]
  cases b'.ensureEditing with
  | error e => exact .error e
  | ok _ => exact .ok { h with rebased_eq := h.rebased_eq, restructured_eq := h.restructured_eq }

theorem Coincides.setBase (h : b.Coincides b') (base : Option String) :
    Together Coincides (b.setBase base) (b'.setBase base) := by
  unfold Blueprint.setBase
  rw [h.ensureEditing_eq, h.base_eq, h.restructured_eq, h.name_eq]
  cases b'.ensureEditing with
  | error e => exact .error e
  | ok _ =>
    rw [ok_bind, ok_bind]
    by_cases hsame : base = b'.base
    · rw [if_pos hsame, if_pos hsame]
      exact .ok h
    · rw [if_neg hsame, if_neg hsame]
      dsimp only
      split_ifs
      · exact .error _
      · exact .error _
      · exact .error _
      · exact .ok { h with
          name_eq := rfl
          base_eq := rfl
          rebased_eq := rfl
          restructured_eq := h.restructured_eq }

theorem Coincides.whenRecorded (h : b.Coincides b') {recorded recorded' : Except Error Blueprint}
    (hrecorded : Together Coincides recorded recorded') {act act' : Blueprint → Edited Blueprint α}
    (hact : ∀ c d : Blueprint, c.Coincides d → (act c).Parallel Coincides (act' d)) :
    (b.whenRecorded recorded act).Parallel Coincides (b'.whenRecorded recorded' act') := by
  cases hrecorded with
  | error e => exact ⟨rfl, h⟩
  | ok hcd => exact hact _ _ hcd

theorem Coincides.onAttributes (h : b.Coincides b')
    {act : Container Attribute → Edited (Container Attribute) α}
    (hact : ∀ c d, c.Coincides Eq d → (act c).Parallel (Container.Coincides Eq) (act d)) :
    (b.onAttributes act).Parallel Coincides (b'.onAttributes act) :=
  h.whenRecorded h.recordStructural fun _ _ hcd =>
    (hact _ _ hcd.attributes).inState fun _ _ => hcd.withAttributes

theorem Coincides.onSeries (h : b.Coincides b')
    {act : Container Series → Edited (Container Series) α}
    (hact : ∀ c d, c.Coincides Series.Coincides d →
      (act c).Parallel (Container.Coincides Series.Coincides) (act d)) :
    (b.onSeries act).Parallel Coincides (b'.onSeries act) :=
  h.whenRecorded h.recordStructural fun _ _ hcd =>
    (hact _ _ hcd.series).inState fun _ _ => hcd.withSeries

/-- A change of a series for which it makes no difference whether the edit buffer of the attributes is
open already, such as one that is made of operations of series. -/
def IgnoresBuffers (f : Series → Except Error (α × Series)) : Prop :=
  ∀ x y : Series, x.Coincides y → Together (fun p q => p.1 = q.1 ∧ p.2.Coincides q.2) (f x) (f y)

/-- Whether a change of a series that a request brings in ignores edit buffers. -/
def Request.IgnoresBuffers : Request → Prop
  | .editSeries _ f => Blueprint.IgnoresBuffers f
  | _ => True

theorem ignoresBuffers_of_parallel {act : Series → Edited Series α}
    (hact : ∀ x y, x.Coincides y → (act x).Parallel Series.Coincides (act y)) :
    IgnoresBuffers fun x => (act x).commit :=
  fun x y hxy => (hact x y hxy).commit

private theorem requireFree_parallel {σ τ : Type} {S : σ → τ → Prop} {x : Edited σ Bool}
    {y : Edited τ Bool} (h : x.Parallel S y) (container : String) (n : UInt32) :
    (requireFree container n x).Parallel S (requireFree container n y) := by
  refine ⟨?_, ?_⟩
  · unfold requireFree Outcome.andThen
    rw [h.result_eq]
    cases y.result with
    | error e => rfl
    | ok added => cases added <;> rfl
  · rw [state_requireFree, state_requireFree]
    exact h.state

private theorem delete_parallel {T : Type} [Component T] {R : T → T → Prop} {c d : Container T}
    (h : c.Coincides R d) (hname : ∀ x y, R x y → Component.name? x = Component.name? y)
    (n : UInt32) : (.ok (c.delete n) (c.contains n) : Edited (Container T) Bool).Parallel
      (Container.Coincides R) (.ok (d.delete n) (d.contains n)) :=
  ⟨congrArg Except.ok (h.contains_eq n), h.delete hname n⟩

private theorem editSeries_parallel {c d : Container Series} (h : c.Coincides Series.Coincides d)
    (n : UInt32) {f : Series → Except Error (α × Series)} (hf : IgnoresBuffers f) :
    (c.editComponent n f).Parallel (Container.Coincides Series.Coincides) (d.editComponent n f) :=
  h.editComponent (fun _ _ hxy => hxy.name?_eq) hf n

theorem Coincides.editSeries (h : b.Coincides b') (n : UInt32)
    {f : Series → Except Error (α × Series)} (hf : IgnoresBuffers f) :
    (b.editSeries n f).Parallel Coincides (b'.editSeries n f) := by
  have hedited := h.onSeries fun c d hcd => editSeries_parallel hcd n hf
  unfold Blueprint.editSeries noSeries label
  rw [h.name_eq]
  exact hedited.require _

/-- Schemas that coincide answer a request alike, and coincide afterwards. -/
theorem Coincides.answer (h : b.Coincides b') (hr : r.IgnoresBuffers) :
    (b.answer r).Parallel Coincides (b'.answer r) := by
  have hname : ∀ a a' : Attribute, a = a' → Component.name? a = Component.name? a' :=
    fun _ _ => congrArg Component.name?
  have hseries : ∀ x y : Series, x.Coincides y → Component.name? x = Component.name? y :=
    fun _ _ hxy => hxy.name?_eq
  cases r with
  | edit => exact ⟨rfl, { h with editing_eq := rfl }⟩
  | setBase base =>
    have hset := h.setBase base
    rw [Blueprint.answer, Blueprint.answer]
    generalize b.setBase base = s at hset ⊢
    generalize b'.setBase base = s' at hset ⊢
    cases hset with
    | error e => exact ⟨rfl, h⟩
    | ok hcd => exact ⟨rfl, hcd⟩
  | addAttribute a =>
    exact requireFree_parallel (h.onAttributes fun c d hcd => hcd.add (fun _ => rfl) a) _ _
  | deleteAttribute n =>
    exact (h.onAttributes fun c d hcd => delete_parallel hcd hname n).map _
  | eraseAttribute n => exact h.onAttributes fun c d hcd => hcd.erase (fun _ => rfl) hname n
  | setAttributeValue n v =>
    refine h.whenRecorded h.recordValues fun c d hcd => ?_
    have hedited := Series.editComponent_parallel hcd.attributes n fun a =>
      (a.setValue v).map ((), ·)
    rw [noAttribute, noAttribute, label, label, hcd.name_eq]
    exact (hedited.inState fun _ _ => hcd.withAttributes).require _
  | editAttribute n f =>
    have hedited := h.onAttributes fun c d hcd => Series.editComponent_parallel hcd n f
    rw [Blueprint.answer, Blueprint.answer, Blueprint.editAttribute, Blueprint.editAttribute,
      noAttribute, noAttribute, label, label, h.name_eq]
    exact (hedited.require _).map _
  | addSeries x =>
    exact requireFree_parallel (h.onSeries fun c d hcd => hcd.add Series.coincides_refl x) _ _
  | deleteSeries n =>
    exact (h.onSeries fun c d hcd => delete_parallel hcd hseries n).map _
  | eraseSeries n => exact h.onSeries fun c d hcd => hcd.erase Series.coincides_refl hseries n
  | editSeries n f => exact (h.editSeries n hr).map _
  | addSeriesAttribute series a =>
    refine requireFree_parallel (h.editSeries series ?_) _ _
    exact ignoresBuffers_of_parallel fun x y hxy => hxy.addAttribute a
  | deleteSeriesAttribute series n =>
    refine (h.editSeries series ?_).map _
    exact ignoresBuffers_of_parallel fun x y hxy => hxy.deleteAttribute n
  | eraseSeriesAttribute series n =>
    exact h.editSeries series (ignoresBuffers_of_parallel fun x y hxy => hxy.eraseAttribute n)
  | setSeriesAttributeValue series n v =>
    refine h.whenRecorded h.recordValues fun c d hcd => ?_
    have hedited := editSeries_parallel hcd.series series
      (ignoresBuffers_of_parallel fun x y hxy =>
        hxy.editAttribute n fun a => (a.setValue v).map ((), ·))
    unfold noSeries label
    dsimp only
    rw [hcd.name_eq]
    exact ((hedited.inState fun _ _ => hcd.withSeries).require _).require _

/-- What the requests are answered with, one after the other. -/
def answers (b : Blueprint) : List Request → List (Except Error Unit)
  | [] => []
  | r :: rs => (b.answer r).result :: (b.serve r).answers rs

theorem Coincides.answers (h : b.Coincides b') {rs : List Request}
    (hrs : ∀ r ∈ rs, r.IgnoresBuffers) : b.answers rs = b'.answers rs := by
  induction rs generalizing b b' with
  | nil => rfl
  | cons r rs ih =>
    obtain ⟨hr, hrs⟩ := List.forall_mem_cons.1 hrs
    obtain ⟨hresult, hstate⟩ := h.answer hr
    rw [state_answer, state_answer] at hstate
    rw [Blueprint.answers, Blueprint.answers, hresult, ih hstate hrs]

/-- Whether the request changes definitions in another way than by their default values. -/
def Request.redefines : Request → Bool
  | .edit | .setBase _ | .setAttributeValue _ _ | .setSeriesAttributeValue _ _ _ => false
  | _ => true

/-- What a request that fails leaves recorded. Changes of the base are recorded when they are made,
and those of definitions when they are asked for, unless the base has been changed. -/
def Request.record (r : Request) (c : Changes) : Changes :=
  if r.setsValue then { c with values := true }
  else if r.redefines && !c.base then { c with structural := true }
  else c

/-- Whether what a failure of the request leaves recorded had been recorded before. -/
def Request.Recorded (r : Request) (c : Changes) : Prop :=
  (r.setsValue → c.values) ∧ (r.redefines → c.base ∨ c.structural)

theorem record_eq_self_iff {c : Changes} : r.record c = c ↔ r.Recorded c := by
  have hexclusive : r.setsValue = true → r.redefines = false := by
    cases r <;> simp [Request.setsValue, Request.redefines]
  have hbits : ∀ sets redefines base structural values : Bool, (sets = true → redefines = false) →
      ((if sets then { base, structural, values := true }
        else if redefines && !base then { base, structural := true, values }
        else { base, structural, values } : Changes) = { base, structural, values } ↔
          (sets = true → values = true) ∧ (redefines = true → base = true ∨ structural = true)) := by
    decide
  exact hbits _ _ _ _ _ hexclusive

/-- The schema `b'` is what a request that fails may leave of `b`. -/
structure Residue (b : Blueprint) (r : Request) (b' : Blueprint) : Prop where
  contents : b.SameContents b'
  changes_eq : b'.changes = r.record b.changes

theorem residue_refl (h : r.record b.changes = b.changes) : Residue b r b :=
  ⟨sameContents_refl b, h.symm⟩

/-- What a change of the attributes that fails leaves of the schema, it leaves of the attributes. -/
theorem residue_onAttributes (hediting : b.editing) (hr : r.redefines) (hv : r.setsValue = false)
    {act : Container Attribute → Edited (Container Attribute) α}
    (h : (b.onAttributes act).result = (act b.definitions.attributes).result →
      b.definitions.attributes.Coincides Eq (act b.definitions.attributes).state) :
    Residue b r (b.onAttributes act).state := by
  unfold onAttributes whenRecorded recordStructural ensureEditing at h ⊢
  rw [if_pos hediting, ok_bind] at h ⊢
  cases hbase : b.changes.base with
  | true => exact residue_refl (by simp [Request.record, hv, hbase])
  | false =>
    rw [hbase] at h
    exact ⟨{ sameContents_refl b with rebased_eq := rfl, attributes := h rfl },
      by simp [Request.record, hv, hr, hbase]; rfl⟩

theorem residue_onSeries (hediting : b.editing) (hr : r.redefines) (hv : r.setsValue = false)
    {act : Container Series → Edited (Container Series) α}
    (h : (b.onSeries act).result = (act b.definitions.series).result →
      b.definitions.series.Coincides Series.Coincides (act b.definitions.series).state) :
    Residue b r (b.onSeries act).state := by
  unfold onSeries whenRecorded recordStructural ensureEditing at h ⊢
  rw [if_pos hediting, ok_bind] at h ⊢
  cases hbase : b.changes.base with
  | true => exact residue_refl (by simp [Request.record, hv, hbase])
  | false =>
    rw [hbase] at h
    exact ⟨{ sameContents_refl b with rebased_eq := rfl, series := h rfl },
      by simp [Request.record, hv, hr, hbase]; rfl⟩

private theorem ne_of_requireFree {σ : Type} {container : String} {n : UInt32} {x : Edited σ Bool}
    (h : (requireFree container n x).result = .error e) : x.result ≠ .ok true := by
  intro hx
  rw [requireFree, Outcome.andThen, hx] at h
  cases h

private theorem result_require {σ : Type} {e' : Error} {x : Edited σ (Option α)} {a : α}
    (h : x.result = .ok (some a)) : (Outcome.require e' x).result = .ok a := by
  rw [Outcome.require, h]
  rfl

private theorem ne_of_require {σ : Type} {e' : Error} {x : Edited σ (Option α)}
    (h : (Outcome.require e' x).result = .error e) (a : α) : x.result ≠ .ok (some a) := by
  intro hx
  cases (result_require hx).symm.trans h

private theorem error_of_map {β σ : Type} {f : α → β} {x : Edited σ α}
    (h : (x.map f).result = .error e) : x.result = .error e := by
  obtain ⟨result, s⟩ := x
  cases result with
  | error e' => exact congrArg Except.error (Except.error.inj h)
  | ok a => cases h

private theorem residue_editAttribute (hediting : b.editing) (n : UInt32)
    {f : Attribute → Except Error (α × Attribute)} (h : (b.editAttribute n f).result = .error e) :
    Residue b (.editAttribute n f) (b.editAttribute n f).state := by
  have hne := ne_of_require h
  show Residue b (.editAttribute n f) (b.onAttributes (·.editComponent n f)).state
  refine residue_onAttributes hediting rfl rfl fun hresult => ?_
  rw [hresult] at hne
  exact Container.coincides_editComponent (fun _ => rfl) (fun _ _ => congrArg Component.name?)
    fun a ha => absurd ha (hne a)

/-- A change of a series leaves it as it was also where the answer is that nothing has been done. -/
private theorem residue_editSeries (hediting : b.editing) (hr : r.redefines) (hv : r.setsValue = false)
    (n : UInt32) {f : Series → Except Error (α × Series)}
    (h : ∀ a, (b.editSeries n f).result = .ok a → ∀ x y, f x = .ok (a, y) → x.Coincides y) :
    Residue b r (b.editSeries n f).state := by
  show Residue b r (b.onSeries (·.editComponent n f)).state
  refine residue_onSeries hediting hr hv fun hresult => ?_
  refine Container.coincides_editComponent Series.coincides_refl (fun _ _ hxy => hxy.name?_eq) ?_
  exact fun a ha => h a (result_require (hresult.trans ha))

private theorem residue_setAttributeValue (hediting : b.editing) {n : UInt32} {v : Option Value}
    (h : (b.setAttributeValue n v).result = .error e) :
    Residue b (.setAttributeValue n v) (b.setAttributeValue n v).state := by
  unfold setAttributeValue whenRecorded recordValues ensureEditing at *
  rw [if_pos hediting] at h ⊢
  have hne := ne_of_require h
  have hattributes : b.definitions.attributes.Coincides Eq (b.definitions.attributes.editComponent
      n fun a => (a.setValue v).map ((), ·)).state :=
    Container.coincides_editComponent (fun _ => rfl) (fun _ _ => congrArg Component.name?)
      fun a ha => absurd ha (hne a)
  exact ⟨{ sameContents_refl b with rebased_eq := rfl, attributes := hattributes }, rfl⟩

private theorem residue_setSeriesAttributeValue (hediting : b.editing) {series n : UInt32}
    {v : Option Value} (h : (b.setSeriesAttributeValue series n v).result = .error e) :
    Residue b (.setSeriesAttributeValue series n v) (b.setSeriesAttributeValue series n v).state := by
  unfold setSeriesAttributeValue whenRecorded recordValues ensureEditing at *
  rw [if_pos hediting] at h ⊢
  have hne := ne_of_require h
  have hseries : b.definitions.series.Coincides Series.Coincides (b.definitions.series.editComponent
      series fun x => (x.editAttribute n fun a => (a.setValue v).map ((), ·)).commit).state := by
    refine Container.coincides_editComponent Series.coincides_refl (fun _ _ hxy => hxy.name?_eq) ?_
    intro o ho x y hy
    obtain ⟨hx, rfl⟩ := Outcome.commit_eq_ok_iff.1 hy
    refine Series.coincides_editAttribute fun u hu => hne u ?_
    obtain rfl : o = some u := Except.ok.inj (hx.symm.trans hu)
    exact result_require ho
  exact ⟨{ sameContents_refl b with rebased_eq := rfl, series := hseries }, rfl⟩

/-- What a request that fails leaves in a session. -/
theorem residue_of_error (hediting : b.editing) (h : (b.answer r).result = .error e) :
    Residue b r (b.serve r) := by
  cases r with
  | edit => cases h
  | setBase base =>
    rw [answer] at h
    rw [serve]
    cases hset : b.setBase base with
    | error e' => exact residue_refl rfl
    | ok b' =>
      rw [hset] at h
      cases h
  | addAttribute a =>
    have hne := ne_of_requireFree h
    rw [serve, addAttribute, state_requireFree]
    refine residue_onAttributes hediting rfl rfl fun hresult => ?_
    rw [hresult] at hne
    exact Container.coincides_add (fun _ => rfl) hne
  | deleteAttribute n =>
    refine residue_onAttributes hediting rfl rfl fun hresult => ?_
    cases hresult.symm.trans (error_of_map h)
  | eraseAttribute n =>
    refine residue_onAttributes hediting rfl rfl fun hresult => ?_
    rw [Container.result_erase] at hresult
    cases hresult.symm.trans h
  | setAttributeValue n v => exact residue_setAttributeValue hediting h
  | editAttribute n f => exact residue_editAttribute hediting n (error_of_map h)
  | addSeries x =>
    have hne := ne_of_requireFree h
    rw [serve, addSeries, state_requireFree]
    refine residue_onSeries hediting rfl rfl fun hresult => ?_
    rw [hresult] at hne
    exact Container.coincides_add Series.coincides_refl hne
  | deleteSeries n =>
    refine residue_onSeries hediting rfl rfl fun hresult => ?_
    cases hresult.symm.trans (error_of_map h)
  | eraseSeries n =>
    refine residue_onSeries hediting rfl rfl fun hresult => ?_
    rw [Container.result_erase] at hresult
    cases hresult.symm.trans h
  | editSeries n f =>
    refine residue_editSeries hediting rfl rfl n fun a ha => ?_
    cases ha.symm.trans (error_of_map h)
  | addSeriesAttribute series a =>
    have hne := ne_of_requireFree h
    rw [serve, addSeriesAttribute, state_requireFree]
    refine residue_editSeries hediting rfl rfl series fun added hadded x y hy => ?_
    obtain ⟨hx, rfl⟩ := Outcome.commit_eq_ok_iff.1 hy
    refine Series.coincides_addAttribute fun htrue => hne ?_
    rw [hadded]
    exact hx.symm.trans htrue
  | deleteSeriesAttribute series n =>
    refine residue_editSeries hediting rfl rfl series fun a ha => ?_
    cases ha.symm.trans (error_of_map h)
  | eraseSeriesAttribute series n =>
    refine residue_editSeries hediting rfl rfl series fun a ha => ?_
    cases ha.symm.trans h
  | setSeriesAttributeValue series n v => exact residue_setSeriesAttributeValue hediting h

/-- Both can take the place of the other in a chain of bases. -/
structure SameLevel (b b' : Blueprint) : Prop where
  surrogate_eq : b.surrogate = b'.surrogate
  name_eq : b.name = b'.name
  definitions : b.definitions.Same b'.definitions

theorem sameLevel_refl (b : Blueprint) : b.SameLevel b :=
  ⟨rfl, rfl, Definitions.same_refl b.definitions⟩

theorem walk_congr {source : Source} {maxDepth room : Nat} {start : String} {visited : List String}
    {walked walked' : List Blueprint} {next : Option String}
    (h : List.Forall₂ SameLevel walked walked') :
    Together (List.Forall₂ SameLevel) (walk source maxDepth start room visited walked next)
      (walk source maxDepth start room visited walked' next) := by
  have hnames : ∀ {l l' : List Blueprint}, List.Forall₂ SameLevel l l' →
      l.map (·.name) = l'.map (·.name) := by
    intro l l' hl
    induction hl with
    | nil => rfl
    | cons hb _ ih => rw [List.map_cons, List.map_cons, hb.name_eq, ih]
  induction room generalizing visited walked walked' next with
  | zero =>
    cases next with
    | none => exact .ok h
    | some name =>
      unfold walk
      dsimp only
      rw [hnames h]
      split_ifs
      · exact .error _
      · exact .error _
  | succ room ih =>
    cases next with
    | none => exact .ok h
    | some name =>
      unfold walk
      dsimp only
      rw [hnames h]
      split_ifs
      · exact .error _
      · cases source name with
        | error e => exact .error e
        | ok base =>
          cases base with
          | none => exact .error _
          | some base => exact ih (List.rel_append h (.cons (sameLevel_refl base) .nil))

/-- Schemas with the same base and the same definitions are resolved alike. -/
theorem resolve_congr (h : b.SameLevel b') (hbase : b.base = b'.base) (source : Source)
    (config : ResolutionConfig) : b.resolve source config = b'.resolve source config := by
  have hchain : Together (List.Forall₂ SameLevel) (b.chain source config.maxDepth)
      (b'.chain source config.maxDepth) := by
    unfold chain
    rw [h.name_eq, hbase]
    exact walk_congr (.cons h .nil)
  have hmerge : b.merge source config.maxDepth = b'.merge source config.maxDepth := by
    unfold merge
    rw [h.surrogate_eq, h.name_eq]
    refine Together.eq (hchain.bind fun l l' hl => ?_)
    have hlevels : List.Forall₂ Definitions.Same (l.map (·.definitions)) (l'.map (·.definitions)) := by
      rw [List.forall₂_map_left_iff, List.forall₂_map_right_iff]
      exact hl.imp fun _ _ hb => hb.definitions
    have hdependencies : l.map (·.surrogate) = l'.map (·.surrogate) := by
      rw [← List.forall₂_eq_eq_eq, List.forall₂_map_left_iff, List.forall₂_map_right_iff]
      exact hl.imp fun _ _ hb => hb.surrogate_eq
    rw [flatten_congr hlevels, hdependencies]
    cases flatten (l'.map (·.definitions)) with
    | error e => exact .error e
    | ok d => exact .ok rfl
  unfold resolve
  rw [hmerge]

/-- Nothing is to be seen of what has led from `b` to `b'`: the base is the same, look-ups by number
and by name give the same definitions, and so does resolution, or it fails with the same error. What
is recorded is left out. -/
structure Untouched (b b' : Blueprint) : Prop where
  base_eq : b'.base = b.base
  editing_eq : b'.editing = b.editing
  attributes : ∀ key, Option.Rel Attribute.Same (b.definitions.attributes.find? key)
    (b'.definitions.attributes.find? key)
  series : ∀ key, Option.Rel Series.Resembles (b.definitions.series.find? key)
    (b'.definitions.series.find? key)
  resolve_eq : ∀ source config, b'.resolve source config = b.resolve source config

theorem SameContents.untouched (h : b.SameContents b') : b.Untouched b' := by
  have hattributes := Attribute.view_of_coincides h.attributes
  have hseries := Series.view_of_coincides h.series
  have hsame : b.definitions.Same b'.definitions :=
    ⟨SortedMap.forall₂_values hattributes.slots,
      (SortedMap.forall₂_values hseries.slots).imp fun _ _ hxy => hxy.same⟩
  have hlevel : b.SameLevel b' := ⟨h.surrogate_eq, h.name_eq, hsame⟩
  exact ⟨h.base_eq.symm, h.editing_eq.symm, hattributes.find?, hseries.find?,
    fun source config => (resolve_congr hlevel h.base_eq source config).symm⟩

theorem Coincides.run (h : b.Coincides b') {rs : List Request} (hrs : ∀ r ∈ rs, r.IgnoresBuffers) :
    (b.run rs).Coincides (b'.run rs) := by
  induction rs generalizing b b' with
  | nil => exact h
  | cons r rs ih =>
    obtain ⟨hr, hrs⟩ := List.forall_mem_cons.1 hrs
    have hstate := (h.answer hr).state
    rw [state_answer, state_answer] at hstate
    exact ih hstate hrs

/-- Where a change of definitions is recorded, the base cannot be changed any more. -/
theorem exists_setBase_ne (hediting : b.editing) (hediting' : b'.editing)
    (h : b.changes.structural = false) (h' : b'.changes.structural) (hbase : b'.base = b.base) :
    ∃ base, b'.answers [.setBase base] ≠ b.answers [.setBase base] := by
  -- A name that is longer than both is neither that of the schema nor that of its base.
  let name : String := (b.name ++ b.base.getD "").push '+'
  have hlength : name.length = b.name.length + (b.base.getD "").length + 1 := by
    rw [String.length_push, String.length_append]
  have hself : some name ≠ some b.name := by
    intro heq
    have hname := congrArg String.length (Option.some.inj heq)
    omega
  have hother : some name ≠ b.base := by
    intro heq
    have hbase := congrArg (fun o => (o.getD "").length) heq
    simp only [Option.getD_some] at hbase
    omega
  have hok : (b.answer (.setBase (some name))).result = .ok () := by
    rw [answer, Blueprint.setBase, ensureEditing, if_pos hediting, ok_bind, if_neg hother, h]
    simp only [Bool.false_eq_true, if_false, if_neg hself]
    rfl
  have herror : ∃ e, (b'.answer (.setBase (some name))).result = .error e := by
    rw [answer, Blueprint.setBase, ensureEditing, if_pos hediting', ok_bind, hbase, if_neg hother, h']
    exact ⟨_, rfl⟩
  obtain ⟨e, he⟩ := herror
  refine ⟨some name, fun heq => ?_⟩
  have hresult := List.head_eq_of_cons_eq heq
  cases he.symm.trans (hresult.trans hok)

/-- A request to a session that fails, for whatever reason, changes neither the base nor any
definition, and look-ups and resolution give the same as before. The record of the session is the same
exactly if a change of the kind had been recorded, or none is recorded for the request: it changes
the base, or definitions after the base has been changed. All requests that may follow are answered
as without the failure, and leave the same to be seen, exactly if no change of definitions is newly
recorded; otherwise the base cannot be changed any more. -/
theorem untouched_of_answer_error (hediting : b.editing) (h : (b.answer r).result = .error e) :
    b.Untouched (b.serve r) ∧
    ((b.serve r).changes = b.changes ↔ r.Recorded b.changes) ∧
    ((∀ rs : List Request, (∀ r ∈ rs, r.IgnoresBuffers) →
        (b.serve r).answers rs = b.answers rs ∧ (b.run rs).Untouched ((b.serve r).run rs)) ↔
      (r.redefines → b.changes.base ∨ b.changes.structural)) := by
  obtain ⟨hcontents, hchanges⟩ := residue_of_error hediting h
  refine ⟨hcontents.untouched, ?_, ?_⟩
  · rw [hchanges]
    exact record_eq_self_iff
  · constructor
    · intro hlater hr
      by_contra hnew
      obtain ⟨hbase, hstructural⟩ := not_or.1 hnew
      have hbase : b.changes.base = false := by simpa using hbase
      have hrecorded : (b.serve r).changes.structural := by
        have hv : r.setsValue = false := by cases r <;> first | rfl | cases hr
        rw [hchanges]
        simp [Request.record, hv, hr, hbase]
      obtain ⟨base, hne⟩ := exists_setBase_ne hediting (hcontents.editing_eq ▸ hediting)
        (by simpa using hstructural) hrecorded hcontents.base_eq.symm
      exact hne (hlater [.setBase base] (by simp [Request.IgnoresBuffers])).1
    · intro hr rs hrs
      have hstructural : b.changes.structural = (b.serve r).changes.structural := by
        rw [hchanges, Request.record]
        split_ifs with hv hs
        · rfl
        · simp only [Bool.and_eq_true, Bool.not_eq_true'] at hs
          simpa [hs.2] using hr hs.1
        · rfl
      have hcoincides : b.Coincides (b.serve r) := ⟨hcontents, hstructural⟩
      exact ⟨(hcoincides.answers hrs).symm, (hcoincides.run hrs).untouched⟩

def sampleSession : Blueprint :=
  run { surrogate := Surrogate.pending ⟨1⟩ .schema, name := "s" } [.addSeries { number := 1 }]

def sampleNaming : Request :=
  .editSeries 1 (Series.perform · [.setStructural Builtin.seriesName "price"])

theorem untouched_of_answer_error_sample : sampleSession.editing ∧
    (sampleSession.answer (.deleteSeriesAttribute 1 2)).result = .error
      (.ofArgument (.reservedNumber 1 2 Builtin.firstCustom)) ∧
    (sampleSession.serve (.deleteSeriesAttribute 1 2)).changes = sampleSession.changes ∧
    (sampleSession.serve (.deleteSeriesAttribute 1 2)).answers [sampleNaming] =
      sampleSession.answers [sampleNaming] := by
  have hediting : sampleSession.editing := rfl
  have herror : (sampleSession.answer (.deleteSeriesAttribute 1 2)).result = .error
      (.ofArgument (.reservedNumber 1 2 Builtin.firstCustom)) := rfl
  have hstructural : sampleSession.changes.structural := rfl
  have hnaming : ∀ r ∈ [sampleNaming], r.IgnoresBuffers := by
    intro r hr
    obtain rfl := List.mem_singleton.1 hr
    exact fun x y hxy => hxy.perform (by simp)
  obtain ⟨-, hchanges, hlater⟩ := untouched_of_answer_error hediting herror
  have hrecorded : Request.Recorded (.deleteSeriesAttribute 1 2) sampleSession.changes :=
    ⟨nofun, fun _ => .inr hstructural⟩
  exact ⟨hediting, herror, hchanges.2 hrecorded,
    (hlater.2 (fun _ => .inr hstructural) [sampleNaming] hnaming).1⟩

/-- The series to be changed does not exist, and yet the base cannot be set afterwards. -/
theorem answer_setBase_of_failure :
    let b : Blueprint := { surrogate := Surrogate.pending ⟨1⟩ .schema, name := "s" }
    let r : Request := .eraseSeriesAttribute 1 4
    b.editing ∧ (b.answer r).result = .error (.seriesNotFound "schema s" (.number 1)) ∧
      (b.serve r).changes ≠ b.changes ∧ (b.answer (.setBase (some "r"))).result = .ok () ∧
      ((b.serve r).answer (.setBase (some "r"))).result = .error
        (.conflictingEdit "s" "the base cannot change in the session that edits definitions") := by
  refine ⟨rfl, rfl, ?_, rfl, rfl⟩
  decide

end ChronicleMeta.Blueprint
