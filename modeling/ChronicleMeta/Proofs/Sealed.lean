import ChronicleMeta.Proofs.Container.Sealed
import ChronicleMeta.Proofs.PropertyMap

/-!
Attributes all of which have a property, at both levels of definitions, of which the committed ones
are frozen. The property is a parameter: what keeps it when one attribute is changed keeps it of
all.
-/

namespace ChronicleMeta

open Component

namespace Attribute

variable {F : Attribute → Prop} {a b : Attribute}

/-- A property of attributes that removals have, and definitions of a built-in property with a value,
and that stays when changes are allowed or not and when another value is set. -/
structure Steady (F : Attribute → Prop) : Prop where
  removal : ∀ n, F { number := n, erasing := true }
  definition : ∀ n p v a, Builtin.ofAttribute? n = some p → ofProperty n p v = .ok a → F a
  editable : ∀ a editable, F a → F { a with editable }
  value : ∀ a v b, F a → a.setValue v = .ok b → F b

theorem steady_true : Steady fun _ => True :=
  ⟨fun _ => ⟨⟩, fun _ _ _ _ _ _ => ⟨⟩, fun _ _ _ => ⟨⟩, fun _ _ _ _ _ => ⟨⟩⟩

theorem Steady.map_setValue (hF : Steady F) {v : Option Value} {u : Unit} (ha : F a)
    (h : (a.setValue v).map ((), ·) = .ok (u, b)) : F b := by
  obtain ⟨b', hb', he⟩ := map_eq_ok_iff.1 h
  obtain rfl : b' = b := congrArg Prod.snd he
  exact hF.value a v b' ha hb'

/-- A frozen attribute with the property. -/
structure Settled (F : Attribute → Prop) (a : Attribute) : Prop where
  editable_eq : a.editable = false
  holds : F a

theorem passes (hF : Steady F) : Container.Passes (Settled F) F where
  erasing := hF.removal
  thaw a h := hF.editable a true h.holds
  freeze a h := ⟨rfl, hF.editable a false h⟩

end Attribute

namespace Series

variable {F : Attribute → Prop} {x : Series}

/-- The attributes of the series have the property, and the committed ones are frozen. -/
def Sealed (F : Attribute → Prop) (x : Series) : Prop :=
  x.attributes.Sealed (Attribute.Settled F) F

/-- A frozen series without an edit buffer, whose attributes are frozen and have the property. -/
structure Settled (F : Attribute → Prop) (x : Series) : Prop where
  editable_eq : x.editable = false
  buffer_eq : x.attributes.buffer = none
  attributes : x.Sealed F

/-- Neither the series nor any of its attributes may be changed. -/
structure Frozen (x : Series) : Prop where
  editable_eq : x.editable = false
  buffer_eq : x.attributes.buffer = none
  attributes : ∀ a ∈ x.attributes.components, a.editable = false

theorem Settled.frozen (h : x.Settled F) : x.Frozen where
  editable_eq := h.editable_eq
  buffer_eq := h.buffer_eq
  attributes a ha := (Container.forall_mem_components h.buffer_eq h.attributes.committed a ha).editable_eq

theorem sealed_new (n : UInt32) : Sealed F { number := n } := Container.sealed_empty

theorem passes (hF : Attribute.Steady F) : Container.Passes (Settled F) (Sealed F) where
  erasing _ := Container.sealed_empty
  thaw _ h := h.attributes
  freeze x h :=
    ⟨rfl, Container.buffer_consolidate x.attributes,
      Container.Sealed.consolidate h (Attribute.passes hF)⟩

theorem Sealed.setStructural (h : x.Sealed F) (hF : Attribute.Steady F) (n : UInt32)
    (text : String) : (x.setStructural n text).state.Sealed F := by
  have hreserved :
      (setReserved x.attributes n (.text text)).state.Sealed (Attribute.Settled F) F := by
    unfold setReserved
    split
    next =>
      exact Container.Sealed.editComponent h (Attribute.passes hF) n fun a u b ha hb =>
        hF.map_setValue ha hb
    next =>
      split
      next => exact h
      next p hp =>
        split
        next => exact h
        next a ha =>
          exact Container.Sealed.serve h (Attribute.passes hF) (r := .add a)
            (hF.editable a true (hF.definition n p _ a hp ha))
  unfold Series.setStructural whenEditable
  split
  next => exact h
  next =>
    unfold Outcome.andThen
    split
    next => exact hreserved
    next => exact hreserved

theorem Sealed.setDescription (h : x.Sealed F) (description : Option String) :
    (x.setDescription description).state.Sealed F := by
  unfold Series.setDescription whenEditable
  split
  next => exact h
  next => exact h

theorem Sealed.setErasing (h : x.Sealed F) (erasing : Bool) :
    (x.setErasing erasing).state.Sealed F := by
  unfold Series.setErasing whenEditable
  split
  next => exact h
  next =>
    cases erasing with
    | true => exact Container.sealed_empty
    | false => exact h

theorem custom_of_checkCustom {n : UInt32} {u : Unit} (h : x.checkCustom n = .ok u) :
    Builtin.firstCustom ≤ n := by
  obtain ⟨_, -, h⟩ := bind_eq_ok_iff.1 h
  split_ifs at h with hn
  exact UInt32.not_lt.1 hn

/-- An attribute with a reserved number is not added. -/
theorem Sealed.addAttribute (h : x.Sealed F) (hF : Attribute.Steady F) {a : Attribute}
    (ha : Builtin.firstCustom ≤ a.number → F a) : (x.addAttribute a).state.Sealed F := by
  unfold Series.addAttribute whenCustom
  split
  next => exact h
  next hcheck =>
    have hadd : (x.attributes.add a).state.Sealed (Attribute.Settled F) F :=
      Container.Sealed.serve h (Attribute.passes hF) (r := .add a)
        (hF.editable a true (ha (custom_of_checkCustom hcheck)))
    unfold Outcome.andThen
    split
    next added _ => cases added <;> exact hadd
    next => exact hadd

theorem Sealed.deleteAttribute (h : x.Sealed F) (hF : Attribute.Steady F) (n : UInt32) :
    (x.deleteAttribute n).state.Sealed F := by
  unfold Series.deleteAttribute whenCustom
  split
  next => exact h
  next => exact Container.Sealed.serve h (Attribute.passes hF) (r := .delete n) trivial

theorem Sealed.eraseAttribute (h : x.Sealed F) (hF : Attribute.Steady F) (n : UInt32) :
    (x.eraseAttribute n).state.Sealed F := by
  unfold Series.eraseAttribute whenCustom
  split
  next => exact h
  next => exact Container.Sealed.serve h (Attribute.passes hF) (r := .erase n) trivial

theorem Sealed.editAttribute {α : Type} (h : x.Sealed F) (hF : Attribute.Steady F) (n : UInt32)
    {f : Attribute → Except Error (α × Attribute)} (hf : ∀ a r b, F a → f a = .ok (r, b) → F b) :
    (x.editAttribute n f).state.Sealed F := by
  unfold Series.editAttribute whenEditable
  split
  next => exact h
  next => exact Container.Sealed.editComponent h (Attribute.passes hF) n hf

inductive Request where
  | setStructural (n : UInt32) (text : String)
  | setDescription (description : Option String)
  | addAttribute (a : Attribute)
  | deleteAttribute (n : UInt32)
  | eraseAttribute (n : UInt32)
  | editAttribute {α : Type} (n : UInt32) (f : Attribute → Except Error (α × Attribute))
  | setErasing (erasing : Bool)
  | setEditable (editable : Bool)
  | freeze

def serve (x : Series) : Request → Series
  | .setStructural n text => (x.setStructural n text).state
  | .setDescription description => (x.setDescription description).state
  | .addAttribute a => (x.addAttribute a).state
  | .deleteAttribute n => (x.deleteAttribute n).state
  | .eraseAttribute n => (x.eraseAttribute n).state
  | .editAttribute n f => (x.editAttribute n f).state
  | .setErasing erasing => (x.setErasing erasing).state
  | .setEditable editable => Component.setEditable editable x
  | .freeze => Component.freeze x

/-- Whether the attributes that a request brings in have the property. -/
def Request.Seals (F : Attribute → Prop) : Request → Prop
  | .addAttribute a => F a
  | .editAttribute _ f => ∀ a r b, F a → f a = .ok (r, b) → F b
  | _ => True

theorem Sealed.serve (h : x.Sealed F) (hF : Attribute.Steady F) {r : Request} (hr : r.Seals F) :
    (x.serve r).Sealed F := by
  cases r with
  | setStructural n text => exact h.setStructural hF n text
  | setDescription description => exact h.setDescription description
  | addAttribute a => exact h.addAttribute hF fun _ => hr
  | deleteAttribute n => exact h.deleteAttribute hF n
  | eraseAttribute n => exact h.eraseAttribute hF n
  | editAttribute n f => exact h.editAttribute hF n hr
  | setErasing erasing => exact h.setErasing erasing
  | setEditable editable => exact h
  | freeze => exact ((passes hF).freeze x h).attributes

/-- Every series that can be made is sealed: what it has committed is frozen. -/
theorem sealed_run (hF : Attribute.Steady F) (n : UInt32) {rs : List Request}
    (hrs : ∀ r ∈ rs, r.Seals F) : (rs.foldl serve { number := n }).Sealed F := by
  have hrun : ∀ {x : Series}, x.Sealed F → (rs.foldl serve x).Sealed F := by
    induction rs with
    | nil => exact fun h => h
    | cons r rs ih =>
      obtain ⟨hr, hrs⟩ := List.forall_mem_cons.1 hrs
      exact fun h => ih hrs (h.serve hF hr)
  exact hrun (sealed_new n)

end Series

theorem Attribute.holds_of_sealed {F : Attribute → Prop} {c : Container Attribute}
    (hc : c.Sealed (Settled F) F) : ∀ a ∈ c.components, F a :=
  hc.forall_mem_components (fun _ ha => ha.holds) fun _ => id

theorem Series.holds_of_sealed {F : Attribute → Prop} {c : Container Series}
    (hc : c.Sealed (Settled F) (Sealed F)) : ∀ x ∈ c.components, ∀ a ∈ x.attributes.components, F a := by
  intro x hx
  have hseries : x.Sealed F :=
    hc.forall_mem_components (fun _ hx => hx.attributes) (fun _ => id) x hx
  exact Attribute.holds_of_sealed hseries

variable {σ : Type} {f : PropertyMap σ} {s s' : σ}

theorem Attribute.sealed_of_rebuild {F : Attribute → Prop} {c c' : Container Attribute}
    (hF : Steady F) (hc : ∀ a ∈ c.components, F a)
    (hf : ∀ a ∈ c.components, ∀ p q s s', a.property = some p → (f p).run s = .ok (q, s') →
      F { a with property := some q })
    (hrun : (c.rebuild (Attribute.mapProperty f)).run s = .ok (c', s')) :
    c'.Sealed (Settled F) F := by
  refine Container.sealed_of_rebuild (passes hF) hrun fun a ha b s s' hb => ?_
  have hFb : F b := by
    obtain ⟨-, rfl, -⟩ | ⟨p, q, hp, hq, rfl⟩ := Attribute.mapProperty_eq_ok_iff.1 hb
    · exact hc a ha
    · exact hf a ha p q s s' hp hq
  exact hF.editable b true hFb

/-- The attributes of series are rebuilt within each series, before these are. -/
theorem Series.sealed_of_rebuild {F : Attribute → Prop} {c c' : Container Series}
    (hF : Attribute.Steady F) (hc : ∀ x ∈ c.components, ∀ a ∈ x.attributes.components, F a)
    (hf : ∀ x ∈ c.components, ∀ a ∈ x.attributes.components, ∀ p q s s', a.property = some p →
      (f p).run s = .ok (q, s') → F { a with property := some q })
    (hrun : (c.rebuild (Series.mapProperties f)).run s = .ok (c', s')) :
    c'.Sealed (Settled F) (Sealed F) := by
  refine Container.sealed_of_rebuild (passes hF) hrun fun x hx y s s' hy => ?_
  obtain ⟨c', hc', rfl⟩ := Series.mapProperties_eq_ok_iff.1 hy
  have hnested : c'.Sealed (Attribute.Settled F) F :=
    Attribute.sealed_of_rebuild hF (hc x hx) (hf x hx) hc'
  exact hnested

namespace Definitions

variable {F : Attribute → Prop} {d : Definitions}

/-- The attributes of chronicles and of series, in this order. -/
def allAttributes (d : Definitions) : List Attribute :=
  d.attributes.components ++ d.series.components.flatMap (·.attributes.components)

/-- All attributes have the property, and what is committed is frozen. -/
structure Sealed (F : Attribute → Prop) (d : Definitions) : Prop where
  attributes : d.attributes.Sealed (Attribute.Settled F) F
  series : d.series.Sealed (Series.Settled F) (Series.Sealed F)

/-- Neither container has an edit buffer. -/
structure Resting (d : Definitions) : Prop where
  attributes : d.attributes.buffer = none
  series : d.series.buffer = none

theorem sealed_empty : Sealed F {} := ⟨Container.sealed_empty, Container.sealed_empty⟩

theorem Sealed.consolidate (h : d.Sealed F) (hF : Attribute.Steady F) : d.consolidate.Sealed F where
  attributes := h.attributes.consolidate (Attribute.passes hF)
  series := h.series.consolidate (Series.passes hF)

theorem resting_consolidate (d : Definitions) : d.consolidate.Resting where
  attributes := Container.buffer_consolidate d.attributes
  series := Container.buffer_consolidate d.series

/-- Definitions whose properties have been changed are at rest. -/
theorem resting_mapProperties {σ : Type} {f : PropertyMap σ} {d' : Definitions} {s s' : σ}
    (h : (d.mapProperties f).run s = .ok (d', s')) : d'.Resting := by
  obtain ⟨c, s₁, e, hc, he, rfl⟩ := mapProperties_eq_ok_iff.1 h
  exact ⟨Container.buffer_of_rebuild hc, Container.buffer_of_rebuild he⟩

theorem Sealed.settled_attributes (h : d.Sealed F) (hd : d.Resting) :
    ∀ a ∈ d.attributes.components, a.Settled F :=
  Container.forall_mem_components hd.attributes h.attributes.committed

theorem Sealed.settled_series (h : d.Sealed F) (hd : d.Resting) :
    ∀ x ∈ d.series.components, x.Settled F :=
  Container.forall_mem_components hd.series h.series.committed

theorem Sealed.forall_mem_allAttributes (h : d.Sealed F) (hd : d.Resting) :
    ∀ a ∈ d.allAttributes, a.Settled F := by
  intro a ha
  rcases List.mem_append.1 ha with ha | ha
  · exact h.settled_attributes hd a ha
  · obtain ⟨x, hx, ha⟩ := List.mem_flatMap.1 ha
    have hx : x.Settled F := h.settled_series hd x hx
    exact Container.forall_mem_components hx.buffer_eq hx.attributes.committed a ha

/-- The attributes that are seen have the property, also while they are being changed. -/
theorem Sealed.holds (h : d.Sealed F) : ∀ a ∈ d.allAttributes, F a := by
  intro a ha
  rcases List.mem_append.1 ha with ha | ha
  · exact Attribute.holds_of_sealed h.attributes a ha
  · obtain ⟨x, hx, ha⟩ := List.mem_flatMap.1 ha
    exact Series.holds_of_sealed h.series x hx a ha

/-- Definitions at rest whose properties are changed, if the attributes keep the property with the
properties they get. -/
theorem Sealed.mapProperties {σ : Type} {f : PropertyMap σ} {d' : Definitions} {s s' : σ}
    (h : d.Sealed F) (hF : Attribute.Steady F) (hd : d.Resting)
    (hf : ∀ a ∈ d.allAttributes, ∀ p q s s', a.property = some p → (f p).run s = .ok (q, s') →
      F { a with property := some q })
    (hrun : (d.mapProperties f).run s = .ok (d', s')) : d'.Sealed F := by
  obtain ⟨c, s₁, e, hc, he, rfl⟩ := mapProperties_eq_ok_iff.1 hrun
  have hattributes : ∀ a ∈ d.attributes.components, F a := fun a ha =>
    (h.settled_attributes hd a ha).holds
  have hseries : ∀ x ∈ d.series.components, ∀ a ∈ x.attributes.components, F a :=
    fun x hx a ha => h.holds a (List.mem_append_right _ (List.mem_flatMap.2 ⟨x, hx, ha⟩))
  refine ⟨?_, ?_⟩
  · exact Attribute.sealed_of_rebuild hF hattributes
      (fun a ha => hf a (List.mem_append_left _ ha)) hc
  · exact Series.sealed_of_rebuild hF hseries
      (fun x hx a ha => hf a (List.mem_append_right _ (List.mem_flatMap.2 ⟨x, hx, ha⟩))) he

end Definitions

end ChronicleMeta
