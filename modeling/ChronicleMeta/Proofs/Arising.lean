import ChronicleMeta.Proofs.Blueprint.Effect
import ChronicleMeta.Proofs.Resolution
import ChronicleMeta.Proofs.Sealed

/-!
How containers, series and definitions come about. All of them begin empty and are changed by requests, by
merging levels into them and by changing their properties, and a series is a container of attributes that
comes about within another one.
-/

namespace ChronicleMeta

open Component

variable {σ : Type}

namespace Container

variable {T : Type} [Component T] {P : T → Prop} {c : Container T}

/-- Containers that come about of components with the property. -/
inductive Arises (P : T → Prop) : Container T → Prop
  | empty : Arises P {}
  | served {c : Container T} (h : Arises P c) {r : Request T} (hr : r.Brings P) : Arises P (c.serve r)
  | rebuilt {c c' : Container T} {σ : Type} {f : T → StateT σ (Except Error) T} {s s' : σ} (h : Arises P c)
      (hf : ∀ x y s s', P x → (f x).run s = .ok (y, s') → P y) (hrun : (c.rebuild f).run s = .ok (c', s')) :
      Arises P c'

/-- Names lead to the components that have them, in the committed state and in the edit buffer. -/
abbrev Named (c : Container T) : Prop := c.Meets Index.Named Index.Named

theorem respects_of_forall {A : T → Prop} {R : T → T → Prop} (hA : ∀ x, A x) (hR : ∀ x y, R x y)
    (r : Request T) : r.Respects A R := by
  cases r with
  | add x => exact hA _
  | editComponent n f => exact fun x _ y _ => hR x y
  | layLevel empty merge level => exact ⟨fun n => hA _, fun x _ y _ => hR x y⟩
  | _ => trivial

theorem brings_true (r : Request T) : r.Brings fun _ => True :=
  respects_of_forall (fun _ => trivial) (fun _ _ => id) r

theorem Arises.run (h : c.Arises P) {rs : List (Request T)} (hrs : ∀ r ∈ rs, r.Brings P) :
    (c.run rs).Arises P :=
  run_invariant (fun _ _ h hr => .served h hr) h hrs

variable [LawfulComponent T]

/-- Names are kept by whatever is done to the components, also if it changes their numbers. -/
theorem invariant_named :
    Index.Invariant (T := T) Index.Named Index.Named (fun _ => True) fun _ _ => True where
  empty := Index.named_empty
  thaw _ h := h.map (LawfulComponent.name?_setEditable true)
  freeze _ h := h.map LawfulComponent.name?_freeze
  erasing _ := trivial
  insert _ _ _ h _ hins := h.insert hins
  remove _ n h := h.remove n
  modify _ _ _ _ _ _ h _ hmod := h.modify hmod

theorem Arises.named (h : c.Arises P) : c.Named := by
  induction h with
  | empty => exact meets_empty invariant_named
  | @served c _ r _ ih =>
    exact Meets.serve invariant_named ih (respects_of_forall (fun _ => trivial) (fun _ _ => trivial) r)
  | rebuilt _ _ hrun => exact meets_of_rebuild invariant_named (fun _ _ _ _ _ _ => trivial) hrun

omit [LawfulComponent T] in
/-- If freezing gives a property to what a container comes about of, what it has committed has it. -/
theorem Arises.sealed {Q : T → Prop} (h : c.Arises P) (hpass : Passes Q P) (hQ : ∀ x, Q x → P x)
    (hthaw : ∀ x, P x → P (setEditable true x)) : c.Sealed Q P := by
  induction h with
  | empty => exact sealed_empty
  | served _ hr ih => exact ih.serve hpass hr
  | rebuilt _ hf hrun ih =>
    refine sealed_of_rebuild hpass hrun fun x hx y s s' hy => ?_
    have hx : P x := ih.forall_mem_components hQ (fun _ => id) x hx
    exact hthaw y (hf x y s s' hx hy)

omit [LawfulComponent T] in
theorem Arises.forall_mem (h : c.Arises P) (hpass : Passes P P) : ∀ x ∈ c.components, P x :=
  (h.sealed hpass (fun _ => id) hpass.thaw).forall_mem_components (fun _ => id) fun _ => id

end Container

namespace Series

variable {x y : Series}

/-- Series that come about: a new one, and what requests, merges and changes of its properties make of
it. -/
inductive Arises : Series → Prop
  | new (n : UInt32) : Arises { number := n }
  | served {x : Series} (h : Arises x) (r : Request) : Arises (x.serve r)
  | merged {x y : Series} (h : Arises x) (other : Series) (hmerge : x.merge other = .ok y) : Arises y
  | mapped {x y : Series} {σ : Type} {f : PropertyMap σ} {s s' : σ} (h : Arises x)
      (hrun : (x.mapProperties f).run s = .ok (y, s')) : Arises y

theorem Arises.perform (h : x.Arises) (rs : List Request) : (rs.foldl serve x).Arises := by
  induction rs generalizing x with
  | nil => exact h
  | cons r rs ih => exact ih (.served h r)

/-- Whether what changes an attribute of the series keeps its number. -/
def Request.KeepsNumbers : Request → Prop
  | .editAttribute _ f => ∀ a u b, f a = .ok (u, b) → b.number = a.number
  | _ => True

theorem setReserved_state (c : Container Attribute) (n : UInt32) (v : Value) :
    ∃ rs, (setReserved c n v).state = c.run rs ∧ ∀ r ∈ rs, r.KeepsNumbers := by
  unfold setReserved
  split
  · refine ⟨[.editComponent n fun a => (a.setValue (some v)).map ((), ·)], rfl, ?_⟩
    exact List.forall_mem_singleton.2 fun a u b h => Attribute.number_map_setValue h
  · split
    · exact ⟨[], rfl, List.forall_mem_nil _⟩
    · split
      · exact ⟨[], rfl, List.forall_mem_nil _⟩
      next a _ => exact ⟨[.add a], rfl, List.forall_mem_singleton.2 trivial⟩

/-- All that a request does to the attributes of a series: it takes all of them away, or makes requests to
their container, which keep numbers if it does. -/
theorem attributes_serve (x : Series) (r : Request) :
    (x.serve r).attributes = {} ∨ ∃ rs, (x.serve r).attributes = x.attributes.run rs ∧
      (r.KeepsNumbers → ∀ q ∈ rs, q.KeepsNumbers) := by
  have hsame : ∃ rs, x.attributes = x.attributes.run rs ∧
      (r.KeepsNumbers → ∀ q ∈ rs, q.KeepsNumbers) := ⟨[], rfl, fun _ => List.forall_mem_nil _⟩
  cases r with
  | setStructural n text =>
    obtain ⟨rs, hrs, hkeeps⟩ := setReserved_state x.attributes n (.text text)
    rw [serve, setStructural, whenEditable]
    split
    · exact .inr hsame
    · refine .inr ⟨rs, ?_, fun _ => hkeeps⟩
      unfold Outcome.andThen
      split <;> exact hrs
  | setDescription description =>
    rw [serve, setDescription, whenEditable]
    split <;> exact .inr hsame
  | addAttribute a =>
    rw [serve, addAttribute, whenCustom]
    split
    · exact .inr hsame
    · refine .inr ⟨[.add a], ?_, fun _ => List.forall_mem_singleton.2 trivial⟩
      unfold Outcome.andThen
      split
      next added _ => cases added <;> rfl
      next => rfl
  | deleteAttribute n =>
    rw [serve, deleteAttribute, whenCustom]
    split
    · exact .inr hsame
    · exact .inr ⟨[.delete n], rfl, fun _ => List.forall_mem_singleton.2 trivial⟩
  | eraseAttribute n =>
    rw [serve, eraseAttribute, whenCustom]
    split
    · exact .inr hsame
    · exact .inr ⟨[.erase n], rfl, fun _ => List.forall_mem_singleton.2 trivial⟩
  | editAttribute n f =>
    rw [serve, editAttribute, whenEditable]
    split
    · exact .inr hsame
    · exact .inr ⟨[.editComponent n f], rfl, fun hf => List.forall_mem_singleton.2 hf⟩
  | setErasing erasing =>
    rw [serve, setErasing, whenEditable]
    split
    · exact .inr hsame
    · cases erasing with
      | true => exact .inl rfl
      | false => exact .inr hsame
  | setEditable editable => exact .inr hsame
  | freeze => exact .inr ⟨[.consolidate], rfl, fun _ => List.forall_mem_singleton.2 trivial⟩

/-- The attributes of a series come about as those of a schema do. -/
theorem Arises.attributes (h : x.Arises) : x.attributes.Arises fun _ => True := by
  induction h with
  | new n => exact .empty
  | @served x _ r ih =>
    obtain hnone | ⟨rs, hrs, -⟩ := attributes_serve x r
    · rw [hnone]
      exact .empty
    · rw [hrs]
      exact ih.run fun r _ => Container.brings_true r
  | merged _ other hmerge ih =>
    obtain ⟨c, hc, rfl⟩ := merge_eq_ok hmerge
    have hlaid : c.Arises fun _ => True := Container.serve_layLevel hc ▸ .served ih (Container.brings_true _)
    exact hlaid
  | mapped _ hrun ih =>
    obtain ⟨c, hc, rfl⟩ := mapProperties_eq_ok_iff.1 hrun
    exact .rebuilt ih (fun _ _ _ _ _ _ => trivial) hc

theorem Arises.named (h : x.Arises) : x.attributes.Named := h.attributes.named

theorem passes_arises : Container.Passes Arises Arises where
  erasing n := .served (.new n) (.setErasing true)
  thaw _ h := .served h (.setEditable true)
  freeze _ h := .served h .freeze

end Series

/-- Whether a series that a request brings in comes about, and a series that it edits goes on to. -/
def Blueprint.Request.Brings : Request → Prop
  | .addSeries x => x.Arises
  | .editSeries _ f => ∀ x u y, Series.Arises x → f x = .ok (u, y) → y.Arises
  | _ => True

namespace Definitions

variable {d d' level : Definitions}

/-- Definitions whose containers come about. -/
structure Arises (d : Definitions) : Prop where
  attributes : d.attributes.Arises fun _ => True
  series : d.series.Arises Series.Arises

theorem arises_empty : Arises {} := ⟨.empty, .empty⟩

theorem Arises.withAttributes (h : d.Arises) (r : Container.Request Attribute) :
    Arises { d with attributes := d.attributes.serve r } :=
  ⟨.served h.attributes (Container.brings_true r), h.series⟩

theorem Arises.withSeries (h : d.Arises) {r : Container.Request Series} (hr : r.Brings Series.Arises) :
    Arises { d with series := d.series.serve r } :=
  ⟨h.attributes, .served h.series hr⟩

/-- To edit a series by a request to it. -/
theorem Arises.editSeries (h : d.Arises) (n : UInt32) {α : Type} (act : Series → Edited Series α)
    (hact : ∀ x, x.Arises → (act x).state.Arises) :
    Arises { d with series := (d.series.editComponent n fun x => (act x).commit).state } := by
  refine h.withSeries (r := .editComponent n fun x => (act x).commit) fun x a y hy hx => ?_
  obtain ⟨-, rfl⟩ := Outcome.commit_eq_ok_iff.1 hy
  exact hact x hx

theorem Arises.revise (h : d.Arises) {r : Blueprint.Request} (hr : r.Brings) : (r.revise d).Arises := by
  cases r with
  | edit => exact h
  | setBase base => exact h
  | addAttribute a => exact h.withAttributes (.add a)
  | deleteAttribute n => exact h.withAttributes (.delete n)
  | eraseAttribute n => exact h.withAttributes (.erase n)
  | setAttributeValue n v => exact h.withAttributes (.editComponent n _)
  | editAttribute n f => exact h.withAttributes (.editComponent n f)
  | addSeries x => exact h.withSeries (r := .add x) (Series.passes_arises.thaw x hr)
  | deleteSeries n => exact h.withSeries (r := .delete n) trivial
  | eraseSeries n => exact h.withSeries (r := .erase n) trivial
  | editSeries n f => exact h.withSeries (r := .editComponent n f) fun x a y hy hx => hr x a y hx hy
  | addSeriesAttribute series a =>
    exact h.editSeries series _ fun x hx => .served hx (.addAttribute a)
  | deleteSeriesAttribute series n =>
    exact h.editSeries series _ fun x hx => .served hx (.deleteAttribute n)
  | eraseSeriesAttribute series n =>
    exact h.editSeries series _ fun x hx => .served hx (.eraseAttribute n)
  | setSeriesAttributeValue series n v =>
    exact h.editSeries series _ fun x hx => .served hx (.editAttribute n _)

theorem Arises.consolidate (h : d.Arises) : d.consolidate.Arises where
  attributes := .served h.attributes (r := .consolidate) trivial
  series := .served h.series (r := .consolidate) trivial

theorem Arises.merge (h : d.Arises) (hmerge : d.merge level = .ok d') : d'.Arises := by
  obtain ⟨attributes, ha, hmerge⟩ := bind_eq_ok_iff.1 hmerge
  obtain ⟨series, hs, hmerge⟩ := bind_eq_ok_iff.1 hmerge
  obtain rfl := pure_eq_ok_iff.1 hmerge
  have hattributes : attributes.Arises fun _ => True :=
    Container.serve_layLevel ha ▸ .served h.attributes (Container.brings_true _)
  have hbrings : (Container.Request.layLevel (fun n => { number := n }) Series.merge level.series).Brings
      Series.Arises :=
    ⟨fun n => Series.passes_arises.thaw _ (.new n), fun x other y hy hx => .merged hx other hy⟩
  exact ⟨hattributes, Container.serve_layLevel hs ▸ .served h.series hbrings⟩

theorem Arises.mapProperties {f : PropertyMap σ} {s s' : σ} (h : d.Arises)
    (hrun : (d.mapProperties f).run s = .ok (d', s')) : d'.Arises := by
  obtain ⟨c, s₁, e, hc, he, rfl⟩ := mapProperties_eq_ok_iff.1 hrun
  exact ⟨.rebuilt h.attributes (fun _ _ _ _ _ _ => trivial) hc,
    .rebuilt h.series (fun x y s s' hx hy => .mapped hx hy) he⟩

end Definitions

namespace Blueprint

variable {b b' : Blueprint} {source : Source} {maxDepth : Nat} {schema : Schema}

/-- Schemas that come about: a new one, and what requests, the end of a session, an id and a change of its
properties make of it. -/
inductive Arises : Blueprint → Prop
  | new (x : Surrogate) (name : String) : Arises { surrogate := x, name }
  | served {b : Blueprint} (h : Arises b) {r : Request} (hr : r.Brings) : Arises (b.serve r)
  | closed {b : Blueprint} (h : Arises b) : Arises b.close
  | upgraded {b b' : Blueprint} {id : UInt64} (h : Arises b) (hid : b.upgrade id = .ok b') : Arises b'
  | mapped {b b' : Blueprint} {σ : Type} {f : PropertyMap σ} {s s' : σ} (h : Arises b)
      (hrun : (b.mapProperties f).run s = .ok (b', s')) : Arises b'

theorem Arises.definitions (h : b.Arises) : b.definitions.Arises := by
  induction h with
  | new x name => exact Definitions.arises_empty
  | @served b _ r hr ih =>
    have heffect := effect_serve b r
    generalize b.serve r = b' at heffect
    cases heffect with
    | refused => exact ih
    | opened => exact ih
    | rebased => exact ih
    | valued => exact ih.revise hr
    | restructured => exact ih.revise hr
  | closed _ ih => exact ih.consolidate
  | upgraded _ hid ih =>
    obtain ⟨x, -, rfl⟩ := map_eq_ok_iff.1 hid
    exact ih
  | mapped _ hrun ih =>
    obtain ⟨d, s₁, hd, hrun⟩ := run_bind_eq_ok_iff.1 hrun
    obtain ⟨rfl, rfl⟩ := run_pure_eq_ok_iff.1 hrun
    exact ih.mapProperties hd

/-- What a merge gives comes about, from whatever levels it is merged. -/
theorem arises_of_merge (h : b.merge source maxDepth = .ok schema) : schema.definitions.Arises := by
  obtain ⟨chain, d, -, hd, rfl⟩ := merge_eq_ok h
  obtain ⟨laid, hlaid, rfl⟩ := map_eq_ok_iff.1 hd
  rw [List.foldlM_reverse] at hlaid
  have harises : laid.Arises := invariant_of_foldrM (P := fun _ d => Definitions.Arises d)
    Definitions.arises_empty (fun _ _ _ _ h hmerge => h.merge hmerge) hlaid
  exact harises.consolidate

end Blueprint

end ChronicleMeta
