import ChronicleMeta.Proofs.Acceptance
import ChronicleMeta.Proofs.Arising
import ChronicleMeta.Proofs.Container.Names

/-!
Definitions under their own numbers. Where each definition stands under its number, whatever has been
changed before, what a session leaves is frozen, names included. That is so where what changes a definition
keeps its number.
-/

namespace ChronicleMeta

open Component

namespace Container

variable {T : Type} [Component T] {P Q : T → Prop} {c : Container T}

/-- Without an edit buffer all components are such as freezing gives. -/
theorem Arises.forall_mem_of_buffer (h : c.Arises P) (hb : c.buffer = none) (hpass : Passes Q P)
    (hQ : ∀ x, Q x → P x) (hthaw : ∀ x, P x → P (setEditable true x)) : ∀ x ∈ c.components, Q x :=
  forall_mem_components hb (h.sealed hpass hQ hthaw).committed

/-- A container that comes about of components with the property, each under its own number. -/
structure Numbered (P : T → Prop) (c : Container T) : Prop where
  arises : c.Arises P
  indexed : c.Indexed

theorem numbered_empty : Numbered P ({} : Container T) := ⟨.empty, indexed_empty⟩

theorem Numbered.keyed (h : c.Numbered P) : c.Keyed := h.indexed.view.number_eq

variable [LawfulComponent T]

theorem Numbered.serve (h : c.Numbered P) {r : Request T} (hr : r.Brings P) (hkeeps : r.KeepsNumbers) :
    (c.serve r).Numbered P :=
  ⟨.served h.arises hr, h.indexed.serve hkeeps⟩

theorem Numbered.run (h : c.Numbered P) {rs : List (Request T)} (hrs : ∀ r ∈ rs, r.Brings P)
    (hkeeps : ∀ r ∈ rs, r.KeepsNumbers) : (c.run rs).Numbered P :=
  run_invariant (P := Numbered P) (Q := fun r => r.Brings P ∧ r.KeepsNumbers)
    (fun _ _ h hr => h.serve hr.1 hr.2) h fun r hr => ⟨hrs r hr, hkeeps r hr⟩

/-- What is built anew is put under the numbers that its components have. -/
theorem Numbered.rebuild {σ : Type} {f : T → StateT σ (Except Error) T} {c' : Container T} {s s' : σ}
    (h : c.Numbered P) (hf : ∀ x y s s', P x → (f x).run s = .ok (y, s') → P y)
    (hrun : (c.rebuild f).run s = .ok (c', s')) : c'.Numbered P :=
  ⟨.rebuilt h.arises hf hrun, indexed_of_rebuild hrun⟩

/-- The names are right whatever the numbers are, and so a container without an edit buffer is frozen if
each component is under its number and may not be changed. -/
theorem Arises.frozen (h : c.Arises P) (hb : c.buffer = none) (hkeyed : c.Keyed)
    (hfrozen : ∀ x ∈ c.components, refreeze x = x) : c.Frozen := by
  have hview : c.view = c.committed := by
    rw [view, hb]
    rfl
  refine ⟨hb, ⟨fun n x hx => hkeyed n x ?_, h.named.committed⟩, hfrozen⟩
  rw [get?, hview]
  exact hx

end Container

namespace Series

variable {x : Series}

/-- Series that come about by changes that keep the numbers of attributes. -/
inductive Numbered : Series → Prop
  | new (n : UInt32) : Numbered { number := n }
  | served {x : Series} (h : Numbered x) {r : Request} (hr : r.KeepsNumbers) : Numbered (x.serve r)
  | merged {x y : Series} (h : Numbered x) (other : Series) (hmerge : x.merge other = .ok y) : Numbered y
  | mapped {x y : Series} {σ : Type} {f : PropertyMap σ} {s s' : σ} (h : Numbered x)
      (hrun : (x.mapProperties f).run s = .ok (y, s')) : Numbered y

theorem Numbered.attributes (h : x.Numbered) : x.attributes.Numbered fun _ => True := by
  induction h with
  | new n => exact Container.numbered_empty
  | @served x _ r hr ih =>
    obtain hnone | ⟨rs, hrs, hkeeps⟩ := attributes_serve x r
    · rw [hnone]
      exact Container.numbered_empty
    · rw [hrs]
      exact ih.run (fun r _ => Container.brings_true r) (hkeeps hr)
  | merged _ other hmerge ih =>
    obtain ⟨c, hc, rfl⟩ := merge_eq_ok hmerge
    have hlaid : c.Numbered fun _ => True := by
      rw [← Container.serve_layLevel hc]
      exact ih.serve (Container.brings_true _) Attribute.mergeRule.number_merge
    exact hlaid
  | mapped _ hrun ih =>
    obtain ⟨c, hc, rfl⟩ := mapProperties_eq_ok_iff.1 hrun
    exact ih.rebuild (fun _ _ _ _ _ _ => trivial) hc

theorem Numbered.thaw (h : x.Numbered) : Numbered (setEditable true x) :=
  .served h (r := .setEditable true) trivial

theorem passes_numbered : Container.Passes Numbered Numbered where
  erasing n := .served (.new n) (r := .setErasing true) trivial
  thaw _ h := h.thaw
  freeze _ h := .served h (r := .freeze) trivial

/-- A series as it is committed. -/
structure Committed (x : Series) : Prop where
  arises : x.Arises
  editable_eq : x.editable = false
  buffer_eq : x.attributes.buffer = none

theorem passes_committed : Container.Passes Committed Arises where
  erasing := passes_arises.erasing
  thaw x h := passes_arises.thaw x h.arises
  freeze x h := ⟨passes_arises.freeze x h, rfl, Container.buffer_consolidate x.attributes⟩

theorem Committed.frozen (h : x.Committed) : x.Frozen where
  editable_eq := h.editable_eq
  buffer_eq := h.buffer_eq
  attributes a ha := (h.arises.attributes.forall_mem_of_buffer h.buffer_eq
    (Attribute.passes Attribute.steady_true) (fun _ _ => trivial) (fun _ _ => trivial) a ha).editable_eq

theorem number_serve (x : Series) (r : Request) : (x.serve r).number = x.number := by
  cases r with
  | setStructural n text =>
    rw [serve, setStructural, whenEditable]
    split
    · rfl
    · unfold Outcome.andThen
      split <;> rfl
  | addAttribute a =>
    rw [serve, addAttribute, whenCustom]
    split
    · rfl
    · unfold Outcome.andThen
      split
      next added _ => cases added <;> rfl
      next => rfl
  | setErasing erasing =>
    rw [serve, setErasing, whenEditable]
    split
    · rfl
    · cases erasing <;> rfl
  | setDescription description =>
    rw [serve, setDescription, whenEditable]
    split <;> rfl
  | deleteAttribute n =>
    rw [serve, deleteAttribute, whenCustom]
    split <;> rfl
  | eraseAttribute n =>
    rw [serve, eraseAttribute, whenCustom]
    split <;> rfl
  | editAttribute n f =>
    rw [serve, editAttribute, whenEditable]
    split <;> rfl
  | setEditable editable => rfl
  | freeze => rfl

end Series

/-- Whether a request keeps the numbers of the attributes and the series that it changes, and brings in
series whose attributes have kept theirs. -/
def Blueprint.Request.KeepsNumbers : Request → Prop
  | .editAttribute _ f => ∀ a u b, f a = .ok (u, b) → b.number = a.number
  | .addSeries x => x.Numbered
  | .editSeries _ f =>
    (∀ x u y, f x = .ok (u, y) → y.number = x.number) ∧
      ∀ x u y, Series.Numbered x → f x = .ok (u, y) → y.Numbered
  | _ => True

namespace Definitions

variable {σ : Type} {d d' : Definitions}

/-- Definitions that come about under their own numbers, those within series too. -/
structure Numbered (d : Definitions) : Prop where
  attributes : d.attributes.Numbered fun _ => True
  series : d.series.Numbered Series.Numbered

theorem numbered_empty : Numbered {} := ⟨Container.numbered_empty, Container.numbered_empty⟩

theorem Numbered.withAttributes (h : d.Numbered) {r : Container.Request Attribute} (hr : r.KeepsNumbers) :
    Numbered { d with attributes := d.attributes.serve r } :=
  ⟨h.attributes.serve (Container.brings_true r) hr, h.series⟩

theorem Numbered.withSeries (h : d.Numbered) {r : Container.Request Series} (hr : r.Brings Series.Numbered)
    (hkeeps : r.KeepsNumbers) : Numbered { d with series := d.series.serve r } :=
  ⟨h.attributes, h.series.serve hr hkeeps⟩

/-- To edit a series by a request to it. -/
theorem Numbered.editSeries (h : d.Numbered) (n : UInt32) {α : Type} (act : Series → Edited Series α)
    (r : Series.Request) (hact : ∀ x, (act x).state = x.serve r) (hr : r.KeepsNumbers) :
    Numbered { d with series := (d.series.editComponent n fun x => (act x).commit).state } := by
  refine h.withSeries (r := .editComponent n fun x => (act x).commit) (fun x a y hy hx => ?_)
    fun x a y hy => ?_
  · obtain ⟨-, rfl⟩ := Outcome.commit_eq_ok_iff.1 hy
    exact hact x ▸ .served hx hr
  · obtain ⟨-, rfl⟩ := Outcome.commit_eq_ok_iff.1 hy
    exact hact x ▸ Series.number_serve x r

theorem Numbered.revise (h : d.Numbered) {r : Blueprint.Request} (hr : r.KeepsNumbers) :
    (r.revise d).Numbered := by
  have hvalue : ∀ (v : Option Value) a u b, (Attribute.setValue a v).map ((), ·) = .ok (u, b) →
      b.number = a.number := fun _ _ _ _ => Attribute.number_map_setValue
  cases r with
  | edit => exact h
  | setBase base => exact h
  | addAttribute a => exact h.withAttributes (r := .add a) trivial
  | deleteAttribute n => exact h.withAttributes (r := .delete n) trivial
  | eraseAttribute n => exact h.withAttributes (r := .erase n) trivial
  | setAttributeValue n v => exact h.withAttributes (r := .editComponent n _) (hvalue v)
  | editAttribute n f => exact h.withAttributes (r := .editComponent n f) hr
  | addSeries x => exact h.withSeries (r := .add x) (Series.Numbered.thaw hr) trivial
  | deleteSeries n => exact h.withSeries (r := .delete n) trivial trivial
  | eraseSeries n => exact h.withSeries (r := .erase n) trivial trivial
  | editSeries n f =>
    exact h.withSeries (r := .editComponent n f) (fun x a y hy hx => hr.2 x a y hx hy) hr.1
  | addSeriesAttribute series a =>
    exact h.editSeries series _ (.addAttribute a) (fun _ => rfl) trivial
  | deleteSeriesAttribute series n =>
    exact h.editSeries series _ (.deleteAttribute n) (fun _ => rfl) trivial
  | eraseSeriesAttribute series n =>
    exact h.editSeries series _ (.eraseAttribute n) (fun _ => rfl) trivial
  | setSeriesAttributeValue series n v =>
    exact h.editSeries series _ (.editAttribute n _) (fun _ => rfl) (hvalue v)

theorem Numbered.consolidate (h : d.Numbered) : d.consolidate.Numbered where
  attributes := h.attributes.serve (r := .consolidate) trivial trivial
  series := h.series.serve (r := .consolidate) trivial trivial

theorem Numbered.mapProperties {f : PropertyMap σ} {s s' : σ} (h : d.Numbered)
    (hrun : (d.mapProperties f).run s = .ok (d', s')) : d'.Numbered := by
  obtain ⟨c, s₁, e, hc, he, rfl⟩ := mapProperties_eq_ok_iff.1 hrun
  exact ⟨h.attributes.rebuild (fun _ _ _ _ _ _ => trivial) hc,
    h.series.rebuild (fun x y s s' hx hy => .mapped hx hy) he⟩

theorem Numbered.keyed (h : d.Numbered) : d.Keyed where
  attributes := h.attributes.keyed
  series := h.series.keyed
  nested x hx := (h.series.arises.forall_mem Series.passes_numbered x hx).attributes.keyed

/-- Definitions without an edit buffer may not be changed. -/
theorem Arises.editable_eq (h : d.Arises) (hd : d.Resting) {a : Attribute}
    (ha : a ∈ d.attributes.components) : a.editable = false :=
  (h.attributes.forall_mem_of_buffer hd.attributes (Attribute.passes Attribute.steady_true)
    (fun _ _ => trivial) (fun _ _ => trivial) a ha).editable_eq

theorem Arises.committed (h : d.Arises) (hd : d.Resting) {x : Series} (hx : x ∈ d.series.components) :
    x.Committed :=
  h.series.forall_mem_of_buffer hd.series Series.passes_committed (fun _ hx => hx.arises)
    Series.passes_arises.thaw x hx

/-- Definitions without an edit buffer that stand under their numbers are frozen, those within series too. -/
theorem Arises.frozen (h : d.Arises) (hd : d.Resting) (hkeyed : d.Keyed) : d.Frozen := by
  refine ⟨h.attributes.frozen hd.attributes hkeyed.attributes fun a ha =>
    Attribute.refreeze_eq_self (h.editable_eq hd ha), h.series.frozen hd.series hkeyed.series fun x hx => ?_,
    fun x hx => ?_⟩
  · obtain ⟨-, heditable, hb⟩ := h.committed hd hx
    exact Series.refreeze_eq_self heditable hb
  · have hcommitted := h.committed hd hx
    exact hcommitted.arises.attributes.frozen hcommitted.buffer_eq (hkeyed.nested x hx) fun a ha =>
      Attribute.refreeze_eq_self (hcommitted.frozen.attributes a ha)

end Definitions

namespace Blueprint

variable {b : Blueprint}

/-- Schemas that come about by changes that keep the numbers of definitions. -/
inductive Numbered : Blueprint → Prop
  | new (x : Surrogate) (name : String) : Numbered { surrogate := x, name }
  | served {b : Blueprint} (h : Numbered b) {r : Request} (hr : r.KeepsNumbers) : Numbered (b.serve r)
  | closed {b : Blueprint} (h : Numbered b) : Numbered b.close
  | upgraded {b b' : Blueprint} {id : UInt64} (h : Numbered b) (hid : b.upgrade id = .ok b') : Numbered b'
  | mapped {b b' : Blueprint} {σ : Type} {f : PropertyMap σ} {s s' : σ} (h : Numbered b)
      (hrun : (b.mapProperties f).run s = .ok (b', s')) : Numbered b'

theorem Numbered.definitions (h : b.Numbered) : b.definitions.Numbered := by
  induction h with
  | new x name => exact Definitions.numbered_empty
  | @served b _ r hr ih =>
    have heffect := effect_serve b r
    generalize b.serve r = b' at heffect
    cases heffect with
    | refused => exact ih
    | opened => exact ih
    | rebased => exact ih
    | valued => exact ih.revise hr
    | restructured => exact ih.revise hr
  | closed _ ih => exact ih.consolidate
  | upgraded _ hid ih =>
    obtain ⟨x, -, rfl⟩ := map_eq_ok_iff.1 hid
    exact ih
  | mapped _ hrun ih =>
    obtain ⟨d, s₁, hd, hrun⟩ := run_bind_eq_ok_iff.1 hrun
    obtain ⟨rfl, rfl⟩ := run_pure_eq_ok_iff.1 hrun
    exact ih.mapProperties hd

end Blueprint

end ChronicleMeta
