import ChronicleMeta.Proofs.Container.Rebuild
import ChronicleMeta.Proofs.Definitions

/-!
Definitions with their properties changed: the change goes through the properties in their order,
keeps all definitions, and leaves them as they were if it changes no property.
-/

namespace ChronicleMeta

open Container Component

variable {σ : Type} {f : PropertyMap σ} {s s' : σ}

namespace Attribute

theorem refreeze_refreeze (a : Attribute) : refreeze (refreeze a) = refreeze a := rfl

theorem refreeze_eq_self {a : Attribute} (h : a.editable = false) : refreeze a = a := by
  cases a
  cases h
  rfl

theorem mapProperty_eq_ok_iff {a b : Attribute} :
    (a.mapProperty f).run s = .ok (b, s') ↔
      (a.property = none ∧ a = b ∧ s = s') ∨
        ∃ p q, a.property = some p ∧ (f p).run s = .ok (q, s') ∧ { a with property := some q } = b := by
  unfold mapProperty
  cases a.property with
  | none => simpa using run_pure_eq_ok_iff
  | some p =>
    rw [run_bind_eq_ok_iff]
    constructor
    · rintro ⟨q, s₁, hq, hb⟩
      obtain ⟨rfl, rfl⟩ := run_pure_eq_ok_iff.1 hb
      exact .inr ⟨p, q, rfl, hq, rfl⟩
    · rintro (⟨hnone, -⟩ | ⟨p', q, hp, hq, rfl⟩)
      · cases hnone
      · cases hp
        exact ⟨q, s', hq, rfl⟩

theorem number_mapProperty {a b : Attribute} (h : (a.mapProperty f).run s = .ok (b, s')) :
    b.number = a.number := by
  obtain ⟨-, rfl, -⟩ | ⟨p, q, -, -, rfl⟩ := mapProperty_eq_ok_iff.1 h <;> rfl

/-- A change of the properties of attributes is a traversal of the properties. -/
theorem mapM_property {l l' : List Attribute} (h : (l.mapM (mapProperty f)).run s = .ok (l', s')) :
    ((l.filterMap (·.property)).mapM f).run s = .ok (l'.filterMap (·.property), s') := by
  induction l generalizing l' s with
  | nil =>
    obtain ⟨rfl, rfl⟩ := run_pure_eq_ok_iff.1 h
    rfl
  | cons a l ih =>
    rw [List.mapM_cons] at h
    obtain ⟨b, s₁, hb, h⟩ := run_bind_eq_ok_iff.1 h
    obtain ⟨bs, s₂, hbs, h⟩ := run_bind_eq_ok_iff.1 h
    obtain ⟨rfl, rfl⟩ := run_pure_eq_ok_iff.1 h
    obtain ⟨hnone, rfl, rfl⟩ | ⟨p, q, hsome, hq, rfl⟩ := mapProperty_eq_ok_iff.1 hb
    · rw [List.filterMap_cons_none hnone, List.filterMap_cons_none hnone]
      exact ih hbs
    · rw [List.filterMap_cons_some hsome, List.mapM_cons]
      exact run_bind_eq_ok_iff.2 ⟨q, s₁, hq, run_bind_eq_ok_iff.2 ⟨_, s₂, ih hbs, rfl⟩⟩

end Attribute

namespace Container

def properties (c : Container Attribute) : List Property := c.components.filterMap (·.property)

/-- A frozen container of attributes stays one, and its properties are changed in turn. -/
theorem Frozen.mapProperty {c c' : Container Attribute} (hc : c.Frozen)
    (h : (c.rebuild (Attribute.mapProperty f)).run s = .ok (c', s')) :
    c'.Frozen ∧ (c.properties.mapM f).run s = .ok (c'.properties, s') := by
  obtain ⟨hc', l, hl, hcomponents⟩ := frozen_of_rebuild (hc.view_eq ▸ hc.consistent)
    Attribute.refreeze_refreeze (fun _ _ _ _ => Attribute.number_mapProperty) h
  have hproperties : c'.properties = l.filterMap (·.property) := by
    rw [properties, hcomponents, List.filterMap_map]
    rfl
  exact ⟨hc', hproperties ▸ Attribute.mapM_property hl⟩

theorem Frozen.mapProperty_eq_self {I : σ → Prop} {c : Container Attribute} (hc : c.Frozen)
    (hf : ∀ p ∈ c.properties, ∀ s, I s → ∃ s', (f p).run s = .ok (p, s') ∧ I s') (hs : I s) :
    ∃ s', (c.rebuild (Attribute.mapProperty f)).run s = .ok (c, s') ∧ I s' := by
  obtain ⟨s', h, hs'⟩ := exists_mapM_eq_self (f := Attribute.mapProperty f) (l := c.components)
    (fun a ha s hs => by
      cases hp : a.property with
      | none => exact ⟨s, Attribute.mapProperty_eq_ok_iff.2 (.inl ⟨hp, rfl, rfl⟩), hs⟩
      | some p =>
        obtain ⟨s', hrun, hs'⟩ := hf p (List.mem_filterMap.2 ⟨a, ha, hp⟩) s hs
        refine ⟨s', Attribute.mapProperty_eq_ok_iff.2 (.inr ⟨p, p, hp, hrun, ?_⟩), hs'⟩
        rw [← hp]) hs
  exact ⟨s', hc.rebuild_eq_self Attribute.refreeze_refreeze h, hs'⟩

/-- Each property of a container built anew is what one of the properties has become. -/
theorem mem_properties_of_mapProperty {c c' : Container Attribute}
    (h : (c.rebuild (Attribute.mapProperty f)).run s = .ok (c', s')) {q : Property}
    (hq : q ∈ c'.properties) : ∃ p ∈ c.properties, ∃ s₁ s₂, (f p).run s₁ = .ok (q, s₂) := by
  obtain ⟨l, r, hl, hall, rfl⟩ := rebuild_eq_ok_iff.1 h
  obtain ⟨a, ha, hqa⟩ := List.mem_filterMap.1 hq
  obtain ⟨b, hb, rfl⟩ := mem_components_of_addAll hall ha
  obtain ⟨p, hp, hstep⟩ := exists_of_mem_mapM_eq_ok (Attribute.mapM_property hl)
    (List.mem_filterMap.2 ⟨b, hb, hqa⟩)
  exact ⟨p, hp, hstep⟩

end Container

namespace Series

theorem refreeze_refreeze (x : Series) : refreeze (refreeze x) = refreeze x := by
  have hconsolidate : x.attributes.consolidate.consolidate = x.attributes.consolidate :=
    consolidate_eq_self (buffer_consolidate x.attributes)
  simp only [refreeze, Component.freeze, Component.setEditable, hconsolidate]

theorem attributes_refreeze {x : Series} (h : x.attributes.buffer = none) :
    (refreeze x).attributes = x.attributes :=
  consolidate_eq_self h

theorem refreeze_eq_self {x : Series} (heditable : x.editable = false) (hb : x.attributes.buffer = none) :
    refreeze x = x := by
  have hattributes := attributes_refreeze hb
  cases x
  simp_all [refreeze, Component.freeze, Component.setEditable]

theorem mapProperties_eq_ok_iff {x y : Series} :
    (x.mapProperties f).run s = .ok (y, s') ↔
      ∃ c, (x.attributes.rebuild (Attribute.mapProperty f)).run s = .ok (c, s') ∧
        { x with attributes := c } = y := by
  rw [mapProperties, run_bind_eq_ok_iff]
  constructor
  · rintro ⟨c, s₁, hc, hy⟩
    obtain ⟨rfl, rfl⟩ := run_pure_eq_ok_iff.1 hy
    exact ⟨c, hc, rfl⟩
  · rintro ⟨c, hc, rfl⟩
    exact ⟨c, s', hc, rfl⟩

theorem number_mapProperties {x y : Series} (h : (x.mapProperties f).run s = .ok (y, s')) :
    y.number = x.number := by
  obtain ⟨c, -, rfl⟩ := mapProperties_eq_ok_iff.1 h
  rfl

/-- A change of the properties of series is a traversal of the properties of their attributes. -/
theorem mapM_properties {l l' : List Series} (hl : ∀ x ∈ l, x.attributes.Frozen)
    (h : (l.mapM (mapProperties f)).run s = .ok (l', s')) :
    (∀ y ∈ l', y.attributes.Frozen) ∧
      ((l.flatMap (·.attributes.properties)).mapM f).run s =
        .ok (l'.flatMap (·.attributes.properties), s') := by
  induction l generalizing l' s with
  | nil =>
    obtain ⟨rfl, rfl⟩ := run_pure_eq_ok_iff.1 h
    exact ⟨by simp, rfl⟩
  | cons x l ih =>
    rw [List.mapM_cons] at h
    obtain ⟨y, s₁, hy, h⟩ := run_bind_eq_ok_iff.1 h
    obtain ⟨ys, s₂, hys, h⟩ := run_bind_eq_ok_iff.1 h
    obtain ⟨rfl, rfl⟩ := run_pure_eq_ok_iff.1 h
    obtain ⟨c, hc, rfl⟩ := mapProperties_eq_ok_iff.1 hy
    obtain ⟨hfrozen, hrun⟩ := (hl x List.mem_cons_self).mapProperty hc
    obtain ⟨hrest, hruns⟩ := ih (fun z hz => hl z (List.mem_cons_of_mem _ hz)) hys
    refine ⟨List.forall_mem_cons.2 ⟨hfrozen, hrest⟩, ?_⟩
    rw [List.flatMap_cons, List.flatMap_cons]
    exact mapM_append_eq_ok hrun hruns

end Series

namespace Definitions

theorem properties_eq (d : Definitions) : d.properties =
    d.attributes.properties ++ d.series.components.flatMap (·.attributes.properties) := by
  rw [properties, List.filterMap_append, List.filterMap_flatMap]
  rfl

theorem properties_consolidate (d : Definitions) : d.consolidate.properties = d.properties := by
  have hattributes : ∀ c : Container Attribute, c.consolidate.properties = c.properties := by
    intro c
    rw [Container.properties, Container.properties]
    rcases components_consolidate c with h | h
    · rw [h]
    · rw [h, List.filterMap_map]
      rfl
  have hseries : (d.series.consolidate.components.flatMap (·.attributes.properties)) =
      d.series.components.flatMap (·.attributes.properties) := by
    rcases components_consolidate d.series with h | h
    · rw [h]
    · rw [h, List.flatMap_map]
      exact List.flatMap_congr fun x _ => hattributes x.attributes
  rw [properties_eq, properties_eq, consolidate, hattributes, hseries]

/-- Definitions all of which are frozen, those of the attributes of series included. -/
structure Frozen (d : Definitions) : Prop where
  attributes : d.attributes.Frozen
  series : d.series.Frozen
  nested : ∀ x ∈ d.series.components, x.attributes.Frozen

theorem mapProperties_eq_ok_iff {d d' : Definitions} :
    (d.mapProperties f).run s = .ok (d', s') ↔
      ∃ c s₁ e, (d.attributes.rebuild (Attribute.mapProperty f)).run s = .ok (c, s₁) ∧
        (d.series.rebuild (Series.mapProperties f)).run s₁ = .ok (e, s') ∧
        { attributes := c, series := e } = d' := by
  rw [mapProperties, run_bind_eq_ok_iff]
  constructor
  · rintro ⟨c, s₁, hc, h⟩
    obtain ⟨e, s₂, he, h⟩ := run_bind_eq_ok_iff.1 h
    obtain ⟨rfl, rfl⟩ := run_pure_eq_ok_iff.1 h
    exact ⟨c, s₁, e, hc, he, rfl⟩
  · rintro ⟨c, s₁, e, hc, he, rfl⟩
    exact ⟨c, s₁, hc, run_bind_eq_ok_iff.2 ⟨e, s', he, rfl⟩⟩

/-- Frozen definitions stay frozen, and their properties are changed in turn. -/
theorem Frozen.mapProperties {d d' : Definitions} (hd : d.Frozen)
    (h : (d.mapProperties f).run s = .ok (d', s')) :
    d'.Frozen ∧ (d.properties.mapM f).run s = .ok (d'.properties, s') := by
  obtain ⟨c, s₁, e, hc, he, rfl⟩ := mapProperties_eq_ok_iff.1 h
  obtain ⟨hcfrozen, hcrun⟩ := hd.attributes.mapProperty hc
  obtain ⟨hefrozen, l, hl, hcomponents⟩ := frozen_of_rebuild (hd.series.view_eq ▸ hd.series.consistent)
    Series.refreeze_refreeze (fun _ _ _ _ => Series.number_mapProperties) he
  obtain ⟨hnested, herun⟩ := Series.mapM_properties hd.nested hl
  -- The attributes of a series are consolidated again, which changes nothing.
  have hkeep : ∀ x ∈ l, (refreeze x).attributes = x.attributes := fun x hx =>
    Series.attributes_refreeze (hnested x hx).buffer_eq
  refine ⟨⟨hcfrozen, hefrozen, fun y hy => ?_⟩, ?_⟩
  · rw [hcomponents] at hy
    obtain ⟨x, hx, rfl⟩ := List.mem_map.1 hy
    exact hkeep x hx ▸ hnested x hx
  · have hproperties : (e.components.flatMap fun x => x.attributes.properties) =
        l.flatMap fun x => x.attributes.properties := by
      rw [hcomponents, List.flatMap_map]
      exact List.flatMap_congr fun x hx => by rw [hkeep x hx]
    rw [properties_eq, properties_eq, hproperties]
    exact mapM_append_eq_ok hcrun herun

/-- Frozen definitions whose properties do not change stay as they are. -/
theorem Frozen.mapProperties_eq_self {I : σ → Prop} {d : Definitions} (hd : d.Frozen)
    (hf : ∀ p ∈ d.properties, ∀ s, I s → ∃ s', (f p).run s = .ok (p, s') ∧ I s') (hs : I s) :
    ∃ s', (d.mapProperties f).run s = .ok (d, s') ∧ I s' := by
  rw [properties_eq] at hf
  obtain ⟨s₁, hc, hs₁⟩ := hd.attributes.mapProperty_eq_self
    (fun p hp => hf p (List.mem_append_left _ hp)) hs
  obtain ⟨s₂, he, hs₂⟩ := exists_mapM_eq_self (f := Series.mapProperties f)
    (l := d.series.components) (fun x hx s hs => by
      obtain ⟨s', hrun, hs'⟩ := (hd.nested x hx).mapProperty_eq_self
        (fun p hp => hf p (List.mem_append_right _ (List.mem_flatMap.2 ⟨x, hx, hp⟩))) hs
      exact ⟨s', Series.mapProperties_eq_ok_iff.2 ⟨x.attributes, hrun, rfl⟩, hs'⟩) hs₁
  refine ⟨s₂, mapProperties_eq_ok_iff.2 ⟨d.attributes, s₁, d.series, hc, ?_, rfl⟩, hs₂⟩
  exact hd.series.rebuild_eq_self Series.refreeze_refreeze he

/-- Each property of changed definitions is what one of the properties has become. -/
theorem mem_properties_of_mapProperties {d d' : Definitions}
    (h : (d.mapProperties f).run s = .ok (d', s')) {q : Property} (hq : q ∈ d'.properties) :
    ∃ p ∈ d.properties, ∃ s₁ s₂, (f p).run s₁ = .ok (q, s₂) := by
  obtain ⟨c, s₁, e, hc, he, rfl⟩ := mapProperties_eq_ok_iff.1 h
  rw [properties_eq] at hq
  rcases List.mem_append.1 hq with hq | hq
  · obtain ⟨p, hp, hstep⟩ := mem_properties_of_mapProperty hc hq
    exact ⟨p, by rw [properties_eq]; exact List.mem_append_left _ hp, hstep⟩
  · obtain ⟨y, hy, hq⟩ := List.mem_flatMap.1 hq
    obtain ⟨l, r, hl, hall, rfl⟩ := rebuild_eq_ok_iff.1 he
    obtain ⟨z, hz, rfl⟩ := mem_components_of_addAll hall hy
    obtain ⟨x, hx, s₂, s₃, hstep⟩ := exists_of_mem_mapM_eq_ok hl hz
    obtain ⟨c', hc', rfl⟩ := Series.mapProperties_eq_ok_iff.1 hstep
    rw [Series.attributes_refreeze (buffer_of_rebuild hc')] at hq
    obtain ⟨p, hp, hstep⟩ := mem_properties_of_mapProperty hc' hq
    refine ⟨p, ?_, hstep⟩
    rw [properties_eq]
    exact List.mem_append_right _ (List.mem_flatMap.2 ⟨x, hx, hp⟩)

private theorem frozen_attributes {levels : List (Container Attribute)} {c : Container Attribute}
    (h : Container.Flattens Attribute.Inherits levels c) : c.Frozen where
  buffer_eq := h.buffer_eq
  consistent := h.consistent
  refreeze_eq a ha := by
    obtain ⟨n, hn⟩ := SortedMap.mem_values_iff.1 ha
    exact Attribute.refreeze_eq_self (h.made_of n a hn).editable_eq

theorem Flattens.frozen {levels : List Definitions} {d : Definitions} (h : Flattens levels d) :
    d.Frozen := by
  have hinherits : ∀ x ∈ d.series.components, ∃ ds, Series.Inherits ds x := fun x hx => by
    obtain ⟨n, hn⟩ := SortedMap.mem_values_iff.1 hx
    exact ⟨_, h.series.made_of n x hn⟩
  refine ⟨frozen_attributes h.attributes, ⟨h.series.buffer_eq, h.series.consistent, fun x hx => ?_⟩,
    fun x hx => ?_⟩
  · obtain ⟨ds, hx⟩ := hinherits x hx
    exact Series.refreeze_eq_self hx.editable_eq hx.attributes_flattens.buffer_eq
  · obtain ⟨ds, hx⟩ := hinherits x hx
    exact frozen_attributes hx.attributes_flattens

end Definitions

end ChronicleMeta
