import Mathlib.Data.List.Pairwise
import ChronicleMeta.Proofs.Merging
import ChronicleMeta.Proofs.Numbering

/-!
Definitions whose properties are put through a function. Nothing comes of it that was not there before but
for the properties. Of frozen definitions nothing is lost either, each is found under the name that it comes
to have, and all that can stand in the way is that two attributes of a schema, or of one of its series, come
to have the same name.
-/

namespace ChronicleMeta

open Container Component

namespace Container

variable {T : Type} [Component T] {R : T → T → Prop} {c c' : Container T}

/-- What each component of a container has become stands under the number that it had, and is found under
the name that it has. -/
structure Renewed (R : T → T → Prop) (c c' : Container T) : Prop where
  buffer_eq : c'.buffer = none
  get?_rel : ∀ n, Option.Rel R (c.get? n) (c'.get? n)
  find?_name_iff : ∀ s x, c'.find? (.name s) = some x ↔ x ∈ c'.components ∧ name? x = some s

/-- Each component has come of one that there was, under the name that it has, and no number is lost: of
components with the same number, one is left. -/
structure Remains (R : T → T → Prop) (c c' : Container T) : Prop where
  components : ∀ y ∈ c'.components, ∃ x ∈ c.components, R x y
  numbers : ∀ x ∈ c.components, ∃ y ∈ c'.components, number y = number x
  find?_name_iff : ∀ s x, c'.find? (.name s) = some x ↔ x ∈ c'.components ∧ name? x = some s

/-- If its components can be changed, nothing but a name that is taken keeps a container from being built
anew. -/
theorem raises_rebuild {σ : Type} {f : T → StateT σ (Except Error) T}
    (hf : ∀ x s, Raises (fun e => e.isDuplicate) ((f x).run s)) (c : Container T) (s : σ) :
    Raises (fun e => e.isDuplicate) ((c.rebuild f).run s) := by
  unfold rebuild
  refine (raises_run_foldlM (fun r x s => ?_) _ _ _).run_bind fun _ s => raises_ok (_, s)
  exact (hf x s).run_bind fun y s => ((raises_add r y).run_lift s).run_bind fun _ s => raises_ok (_, s)

private theorem find_rel (hR : ∀ x y, R x y → number y = number x) {l l' : List T}
    (h : List.Forall₂ R l l') (n : UInt32) :
    Option.Rel R (SortedMap.find n (l.map fun x => (number x, x)))
      (SortedMap.find n (l'.map fun y => (number y, y))) := by
  induction h with
  | nil => exact .none
  | @cons x y l l' hxy _ ih =>
    simp only [List.map_cons, SortedMap.find, hR x y hxy]
    split
    · exact .some hxy
    · exact ih

/-- Two components of a consistent container are related whichever comes first. -/
theorem pairwise_components_iff (hc : c.view.Consistent) [Std.Symm R] :
    c.components.Pairwise R ↔
      ∀ m n x y, c.get? m = some x → c.get? n = some y → m ≠ n → R x y := by
  constructor
  · intro h m n x y hm hn hne
    refine h.forall (SortedMap.mem_values_iff.2 ⟨m, hm⟩) (SortedMap.mem_values_iff.2 ⟨n, hn⟩) fun heq => ?_
    exact hne ((hc.number_eq m x hm).symm.trans ((congrArg number heq).trans (hc.number_eq n y hn)))
  · intro h
    refine hc.ascending.imp_of_mem fun {x y} hx hy hlt => ?_
    obtain ⟨m, hm⟩ := SortedMap.mem_values_iff.1 hx
    obtain ⟨n, hn⟩ := SortedMap.mem_values_iff.1 hy
    refine h m n x y hm hn fun heq => ?_
    rw [hc.number_eq m x hm, hc.number_eq n y hn, heq] at hlt
    simp at hlt

variable [LawfulComponent T]

theorem Frozen.indexed (hc : c.Frozen) : c.Indexed where
  committed := hc.consistent
  draft := by
    rw [draft, hc.buffer_eq]
    exact Index.consistent_map hc.consistent (LawfulComponent.number_setEditable true)
      (LawfulComponent.name?_setEditable true)

theorem remains_of_rebuild {σ : Type} {f : T → StateT σ (Except Error) T} {s s' : σ}
    (hf : ∀ x ∈ c.components, ∀ y s₁ s₂, (f x).run s₁ = .ok (y, s₂) →
      number y = number x ∧ R x (refreeze y))
    (h : (c.rebuild f).run s = .ok (c', s')) : c.Remains R c' := by
  have hindexed : c'.Indexed := indexed_of_rebuild h
  obtain ⟨l, r, hl, hall, rfl⟩ := rebuild_eq_ok_iff.1 h
  refine ⟨fun z hz => ?_, fun x hx => ?_, fun s x => hindexed.find?_name_iff⟩
  · obtain ⟨y, hy, rfl⟩ := mem_components_of_addAll hall hz
    obtain ⟨x, hx, s₁, s₂, hstep⟩ := exists_of_mem_mapM_eq_ok hl hy
    exact ⟨x, hx, (hf x hx y s₁ s₂ hstep).2⟩
  · obtain ⟨y, hy, s₁, s₂, hstep⟩ := exists_step_of_mapM_eq_ok hl hx
    obtain ⟨z, hz⟩ := exists_get?_of_addAll hall hy
    refine ⟨z, SortedMap.mem_values_iff.2 ⟨_, hz⟩, ?_⟩
    rw [hindexed.view.number_eq _ z hz, LawfulComponent.number_setEditable]
    exact (hf x hx y s₁ s₂ hstep).1

theorem Frozen.renewed (hc : c.Frozen) (hc' : c'.Frozen) (hR : ∀ x y, R x y → number y = number x)
    (h : List.Forall₂ R c.components c'.components) : c.Renewed R c' where
  buffer_eq := hc'.buffer_eq
  get?_rel n := by
    have hrel := find_rel hR h n
    rw [components, components, ← hc.indexed.view.toList_eq, ← hc'.indexed.view.toList_eq] at hrel
    exact hrel
  find?_name_iff s x := hc'.indexed.find?_name_iff

end Container

variable {g : Property → Property}

def exchange (g : Property → Property) : PropertyMap Unit := fun p => pure (g p)

def Attribute.renewed (g : Property → Property) (a : Attribute) : Attribute :=
  { a with property := a.property.map g }

theorem Attribute.run_mapProperty_exchange (g : Property → Property) (a : Attribute) :
    (a.mapProperty (exchange g)).run () = .ok (a.renewed g, ()) := by
  obtain ⟨number, property, value, erasing, editable⟩ := a
  cases property <;> rfl

theorem Attribute.name?_renewed_iff {a : Attribute} {s : String} :
    name? (a.renewed g) = some s ↔ ∃ p, a.property = some p ∧ (g p).name = s := by
  simp [Component.name?, renewed]

namespace Container

variable {c c' : Container Attribute}

/-- Whether no two attributes come to have properties of the same name. -/
def Admits (g : Property → Property) (c : Container Attribute) : Prop :=
  ∀ m n a b p q, c.get? m = some a → c.get? n = some b → a.property = some p → b.property = some q →
    (g p).name = (g q).name → m = n

/-- The attributes of a container with their properties put through the function. -/
abbrev RenewedBy (g : Property → Property) : Container Attribute → Container Attribute → Prop :=
  Renewed fun a b => b = a.renewed g

/-- What is left of the attributes of a container, with their properties put through the function. -/
abbrev RemainsBy (g : Property → Property) : Container Attribute → Container Attribute → Prop :=
  Remains fun a b => b = a.renewed g

theorem remainsBy_of_rebuild (hc : ∀ a ∈ c.components, a.editable = false)
    (h : (c.rebuild (Attribute.mapProperty (exchange g))).run () = .ok (c', ())) : c.RemainsBy g c' := by
  refine remains_of_rebuild (fun a ha b _ _ hb => ?_) h
  obtain ⟨rfl, -⟩ := Prod.mk.inj (Except.ok.inj ((Attribute.run_mapProperty_exchange g a).symm.trans hb))
  exact ⟨rfl, Attribute.refreeze_eq_self (hc a ha)⟩

theorem admits_iff (hc : c.view.Consistent) : c.Admits g ↔
    (c.components.map (Attribute.renewed g)).Pairwise fun a b =>
      ∀ s, name? a = some s → name? b ≠ some s := by
  have hsymm : Std.Symm fun a b : Attribute =>
      ∀ s, name? (a.renewed g) = some s → name? (b.renewed g) ≠ some s :=
    ⟨fun a b h s hb ha => h s ha hb⟩
  rw [List.pairwise_map, pairwise_components_iff hc]
  constructor
  · intro h m n a b hm hn hne s ha hb
    obtain ⟨p, hp, hps⟩ := Attribute.name?_renewed_iff.1 ha
    obtain ⟨q, hq, hqs⟩ := Attribute.name?_renewed_iff.1 hb
    exact hne (h m n a b p q hm hn hp hq (hps.trans hqs.symm))
  · intro h m n a b p q hm hn hp hq hname
    by_contra hne
    exact h m n a b hm hn hne (g p).name (Attribute.name?_renewed_iff.2 ⟨p, hp, rfl⟩)
      (Attribute.name?_renewed_iff.2 ⟨q, hq, hname.symm⟩)

/-- The properties of frozen attributes can be put through the function unless two names come to clash,
and only the properties change. -/
theorem Frozen.renew (hc : c.Frozen) :
    ((∃ c', (c.rebuild (Attribute.mapProperty (exchange g))).run () = .ok (c', ())) ↔ c.Admits g) ∧
      ∀ c', (c.rebuild (Attribute.mapProperty (exchange g))).run () = .ok (c', ()) →
        c'.Frozen ∧ c.RenewedBy g c' := by
  have hnumber : ∀ a b s₁ s₂, (Attribute.mapProperty (exchange g) a).run s₁ = .ok (b, s₂) →
      b.number = a.number := fun _ _ _ _ => Attribute.number_mapProperty
  have hcons : c.view.Consistent := hc.indexed.view
  have hl : (c.components.mapM (Attribute.mapProperty (exchange g))).run () =
      .ok (c.components.map (Attribute.renewed g), ()) := by
    rw [run_mapM_iff, List.forall₂_map_right_iff]
    exact List.forall₂_same.2 fun a _ => Attribute.run_mapProperty_exchange g a
  constructor
  · rw [admits_iff hcons]
    exact rebuild_ok_iff hcons Attribute.refreeze_refreeze hnumber hl
  · intro c' h
    obtain ⟨hc', l, hl', hcomponents⟩ := frozen_of_rebuild hcons Attribute.refreeze_refreeze hnumber h
    obtain ⟨rfl, -⟩ := Prod.mk.inj (Except.ok.inj (hl.symm.trans hl'))
    refine ⟨hc', hc.renewed hc' (fun a b hb => hb ▸ rfl) ?_⟩
    rw [hcomponents, List.map_map, List.forall₂_map_right_iff]
    exact List.forall₂_same.2 fun a ha => congrArg (Attribute.renewed g) (hc.refreeze_eq a ha)

end Container

namespace Series

variable {x y : Series}

/-- A series of which only the properties of attributes have been put through the function. -/
structure Renewed (g : Property → Property) (x y : Series) : Prop where
  rest_eq : y = { x with attributes := y.attributes }
  attributes : x.attributes.RenewedBy g y.attributes

/-- What is left of a series, with the properties of its attributes put through the function. -/
structure Remains (g : Property → Property) (x y : Series) : Prop where
  rest_eq : y = { x with attributes := y.attributes }
  attributes : x.attributes.RemainsBy g y.attributes

theorem remains_of_mapProperties (hx : x.Frozen)
    (h : (x.mapProperties (exchange g)).run () = .ok (y, ())) : x.Remains g (refreeze y) := by
  obtain ⟨c, hc, rfl⟩ := mapProperties_eq_ok_iff.1 h
  have hself : refreeze { x with attributes := c } = { x with attributes := c } :=
    refreeze_eq_self hx.editable_eq (buffer_of_rebuild hc)
  rw [hself]
  exact ⟨rfl, remainsBy_of_rebuild hx.attributes hc⟩

theorem Renewed.number_eq (h : x.Renewed g y) : y.number = x.number := by
  rw [h.rest_eq]

/-- The name of a series is a value, and not the name of a property. -/
theorem Renewed.name?_eq (h : x.Renewed g y) : y.name? = x.name? := by
  have hrel := h.attributes.get?_rel Builtin.seriesName
  unfold name? structural?
  generalize x.attributes.get? Builtin.seriesName = a, y.attributes.get? Builtin.seriesName = b at hrel
  cases hrel with
  | none => rfl
  | some hb =>
    subst hb
    rfl

/-- The properties of a series can be put through the function if those of its attributes can. -/
theorem renew (hx : x.attributes.Frozen) :
    ((∃ y, (x.mapProperties (exchange g)).run () = .ok (y, ())) ↔ x.attributes.Admits g) ∧
      ∀ y, (x.mapProperties (exchange g)).run () = .ok (y, ()) → y.attributes.Frozen ∧ x.Renewed g y := by
  obtain ⟨hadmits, hrenewed⟩ := hx.renew (g := g)
  constructor
  · rw [← hadmits]
    constructor
    · rintro ⟨y, hy⟩
      obtain ⟨c, hc, -⟩ := mapProperties_eq_ok_iff.1 hy
      exact ⟨c, hc⟩
    · rintro ⟨c, hc⟩
      exact ⟨_, mapProperties_eq_ok_iff.2 ⟨c, hc, rfl⟩⟩
  · intro y hy
    obtain ⟨c, hc, rfl⟩ := mapProperties_eq_ok_iff.1 hy
    obtain ⟨hfrozen, hc⟩ := hrenewed c hc
    exact ⟨hfrozen, rfl, hc⟩

end Series

namespace Definitions

variable {d d' : Definitions}

/-- Whether neither among the attributes nor among those of a series two come to have the same name. -/
structure Admits (g : Property → Property) (d : Definitions) : Prop where
  attributes : d.attributes.Admits g
  series : ∀ x ∈ d.series.components, x.attributes.Admits g

/-- Definitions of which only the properties have been put through the function. -/
structure Renewed (g : Property → Property) (d d' : Definitions) : Prop where
  attributes : d.attributes.RenewedBy g d'.attributes
  series : d.series.Renewed (Series.Renewed g) d'.series

/-- What is left of definitions, with their properties put through the function. -/
structure Remains (g : Property → Property) (d d' : Definitions) : Prop where
  attributes : d.attributes.RemainsBy g d'.attributes
  series : d.series.Remains (Series.Remains g) d'.series

/-- Whatever numbers the definitions stand under, nothing but the properties is new. -/
theorem Arises.remains (h : d.Arises) (hd : d.Resting)
    (hrun : (d.mapProperties (exchange g)).run () = .ok (d', ())) : d.Remains g d' := by
  obtain ⟨c, ⟨⟩, e, hc, he, rfl⟩ := mapProperties_eq_ok_iff.1 hrun
  constructor
  · exact remainsBy_of_rebuild (fun a => h.editable_eq hd) hc
  · exact remains_of_rebuild (fun x hx y _ _ hy => ⟨Series.number_mapProperties hy,
      Series.remains_of_mapProperties (h.committed hd hx).frozen hy⟩) he

/-- All that can keep properties from being put through the function is that a name is taken. -/
theorem raises_mapProperties (g : Property → Property) (d : Definitions) :
    Raises (fun e => e.isDuplicate) ((d.mapProperties (exchange g)).run ()) := by
  have hattributes : ∀ (c : Container Attribute) s, Raises (fun e => e.isDuplicate)
      ((c.rebuild (Attribute.mapProperty (exchange g))).run s) :=
    raises_rebuild fun a _ => Attribute.run_mapProperty_exchange g a ▸ raises_ok _
  have hseries : ∀ (c : Container Series) s, Raises (fun e => e.isDuplicate)
      ((c.rebuild (Series.mapProperties (exchange g))).run s) :=
    raises_rebuild fun x s => (hattributes x.attributes s).run_bind fun _ s => raises_ok (_, s)
  exact (hattributes _ _).run_bind fun _ s => (hseries _ s).run_bind fun _ s => raises_ok (_, s)

private theorem renewed_of_mapM (hd : d.Frozen) {l : List Series}
    (hl : (d.series.components.mapM (Series.mapProperties (exchange g))).run () = .ok (l, ())) :
    List.Forall₂ (fun x y => refreeze y = y ∧ x.Renewed g y) d.series.components l := by
  have hmem := (List.forall₂_and_left _ _).2 ⟨fun x hx => hx, run_mapM_iff.1 hl⟩
  refine hmem.imp fun x y ⟨hx, hy⟩ => ?_
  obtain ⟨hfrozen, hrenewed⟩ := (Series.renew (hd.nested x hx)).2 y hy
  have heditable : y.editable = false := by
    rw [hrenewed.rest_eq, ← hd.series.refreeze_eq x hx]
    rfl
  exact ⟨Series.refreeze_eq_self heditable hfrozen.buffer_eq, hrenewed⟩

private theorem exists_mapM_iff (hd : d.Frozen) :
    (∃ l, (d.series.components.mapM (Series.mapProperties (exchange g))).run () = .ok (l, ())) ↔
      ∀ x ∈ d.series.components, x.attributes.Admits g := by
  rw [exists_run_mapM_iff]
  exact forall₂_congr fun x hx => (Series.renew (hd.nested x hx)).1

private theorem renew_series (hd : d.Frozen) :
    ((∃ e, (d.series.rebuild (Series.mapProperties (exchange g))).run () = .ok (e, ())) ↔
        ∀ x ∈ d.series.components, x.attributes.Admits g) ∧
      ∀ e, (d.series.rebuild (Series.mapProperties (exchange g))).run () = .ok (e, ()) →
        d.series.Renewed (Series.Renewed g) e := by
  have hnumber : ∀ x y s₁ s₂, (Series.mapProperties (exchange g) x).run s₁ = .ok (y, s₂) →
      y.number = x.number := fun _ _ _ _ => Series.number_mapProperties
  have hcons : d.series.view.Consistent := hd.series.indexed.view
  constructor
  · rw [← exists_mapM_iff hd]
    constructor
    · rintro ⟨e, he⟩
      obtain ⟨l, r, hl, -⟩ := rebuild_eq_ok_iff.1 he
      exact ⟨l, hl⟩
    · -- The series keep their names, so that none of these can clash.
      rintro ⟨l, hl⟩
      have hnames : l.map name? = d.series.components.map name? := by
        rw [eq_comm, ← List.forall₂_eq_eq_eq, List.forall₂_map_left_iff, List.forall₂_map_right_iff]
        exact (renewed_of_mapM hd hl).imp fun x y hy => hy.2.name?_eq.symm
      have hdistinct : (d.series.components.map name?).Pairwise fun s t => ∀ u, s = some u → t ≠ some u :=
        List.pairwise_map.2 hcons.names_distinct
      rw [← hnames] at hdistinct
      exact (rebuild_ok_iff hcons Series.refreeze_refreeze hnumber hl).2 (List.pairwise_map.1 hdistinct)
  · intro e he
    obtain ⟨hfrozen, l, hl, hcomponents⟩ := frozen_of_rebuild hcons Series.refreeze_refreeze hnumber he
    refine hd.series.renewed hfrozen (fun x y hy => hy.number_eq) ?_
    rw [hcomponents, List.forall₂_map_right_iff]
    exact (renewed_of_mapM hd hl).imp fun x y ⟨hkept, hy⟩ => hkept.symm ▸ hy

/-- The properties of frozen definitions can be put through the function unless names come to clash, and only
the properties change. -/
theorem Frozen.renew (hd : d.Frozen) :
    ((∃ d', (d.mapProperties (exchange g)).run () = .ok (d', ())) ↔ d.Admits g) ∧
      ∀ d', (d.mapProperties (exchange g)).run () = .ok (d', ()) → d.Renewed g d' := by
  obtain ⟨hattributes, hattributes'⟩ := hd.attributes.renew (g := g)
  obtain ⟨hseries, hseries'⟩ := renew_series (g := g) hd
  constructor
  · constructor
    · rintro ⟨d', hd'⟩
      obtain ⟨c, ⟨⟩, e, hc, he, -⟩ := mapProperties_eq_ok_iff.1 hd'
      exact ⟨hattributes.1 ⟨c, hc⟩, hseries.1 ⟨e, he⟩⟩
    · intro h
      obtain ⟨c, hc⟩ := hattributes.2 h.attributes
      obtain ⟨e, he⟩ := hseries.2 h.series
      exact ⟨_, mapProperties_eq_ok_iff.2 ⟨c, (), e, hc, he, rfl⟩⟩
  · intro d' hd'
    obtain ⟨c, ⟨⟩, e, hc, he, rfl⟩ := mapProperties_eq_ok_iff.1 hd'
    exact ⟨(hattributes' c hc).2, hseries' e he⟩

end Definitions

namespace Blueprint

variable {b b' : Blueprint}

/-- A schema of which only the properties have been put through the function. -/
structure Renewed (g : Property → Property) (b b' : Blueprint) : Prop where
  rest_eq : b' = { b with definitions := b'.definitions }
  definitions : b.definitions.Renewed g b'.definitions

/-- What is left of a schema, with the properties of its definitions put through the function. -/
structure Remains (g : Property → Property) (b b' : Blueprint) : Prop where
  rest_eq : b' = { b with definitions := b'.definitions }
  definitions : b.definitions.Remains g b'.definitions

theorem remains_of_mapProperties (hb : b.definitions.Arises) (hrest : b.definitions.Resting)
    (h : (b.mapProperties (exchange g)).run () = .ok (b', ())) : b.Remains g b' := by
  obtain ⟨d, ⟨⟩, hd, h⟩ := run_bind_eq_ok_iff.1 h
  obtain ⟨rfl, -⟩ := run_pure_eq_ok_iff.1 h
  exact ⟨rfl, hb.remains hrest hd⟩

theorem renew (hb : b.definitions.Frozen) :
    ((∃ b', (b.mapProperties (exchange g)).run () = .ok (b', ())) ↔ b.definitions.Admits g) ∧
      ∀ b', (b.mapProperties (exchange g)).run () = .ok (b', ()) → b.Renewed g b' := by
  obtain ⟨hadmits, hrenewed⟩ := hb.renew (g := g)
  constructor
  · rw [← hadmits]
    constructor
    · rintro ⟨b', hb'⟩
      obtain ⟨d, ⟨⟩, hd, -⟩ := run_bind_eq_ok_iff.1 hb'
      exact ⟨d, hd⟩
    · rintro ⟨d, hd⟩
      exact ⟨_, run_bind_eq_ok_iff.2 ⟨d, (), hd, rfl⟩⟩
  · intro b' hb'
    obtain ⟨d, ⟨⟩, hd, hb'⟩ := run_bind_eq_ok_iff.1 hb'
    obtain ⟨rfl, -⟩ := run_pure_eq_ok_iff.1 hb'
    exact ⟨rfl, hrenewed d hd⟩

end Blueprint

end ChronicleMeta
