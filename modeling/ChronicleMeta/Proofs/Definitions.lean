import ChronicleMeta.Definitions
import ChronicleMeta.Proofs.Attribute
import ChronicleMeta.Proofs.Container.Inheritance

/-!
Inheritance of attributes and series. Each field of a flattened definition is the one set by the
most derived definition that counts, and the attributes of a series are inherited by the same rule
from the definitions of the series that count.
-/

namespace ChronicleMeta

open Container Component

instance : LawfulComponent Attribute where
  number_erasing _ := rfl
  name?_erasing _ := rfl
  number_setEditable _ _ := rfl
  name?_setEditable _ _ := rfl
  number_freeze _ := rfl
  name?_freeze _ := rfl

namespace Attribute

/-- The attribute has the property and the value of the first definition that sets one, and is no
removal. -/
structure MadeOf (ds : List Attribute) (a : Attribute) : Prop where
  property_eq : a.property = ds.findSome? (·.property)
  value_eq : a.value = ds.findSome? (·.value)
  erasing_eq : a.erasing = false

/-- An attribute made of definitions, and frozen. -/
structure Inherits (ds : List Attribute) (a : Attribute) : Prop extends MadeOf ds a where
  editable_eq : a.editable = false

theorem number_map_setValue {a b : Attribute} {v : Option Value} {u : Unit}
    (h : (a.setValue v).map ((), ·) = .ok (u, b)) : b.number = a.number := by
  obtain ⟨_, hset, he⟩ := map_eq_ok_iff.1 h
  obtain ⟨-, rfl⟩ := Prod.mk.inj he
  obtain ⟨-, -, rfl⟩ := setValue_eq_ok_iff.1 hset
  rfl

theorem mergeRule : MergeRule (fun n => { number := n }) Attribute.merge MadeOf where
  number_empty _ := rfl
  number_merge a d b h := by
    obtain ⟨-, -, rfl⟩ := merge_eq_ok_iff.1 h
    rfl
  made_empty _ := ⟨rfl, rfl, rfl⟩
  made_merge ds a d b ha h := by
    obtain ⟨-, -, rfl⟩ := merge_eq_ok_iff.1 h
    refine ⟨?_, ?_, by simp [ha.erasing_eq]⟩
    · rw [List.findSome?_cons, ← ha.property_eq]
      cases d.property <;> rfl
    · rw [List.findSome?_cons, ← ha.value_eq]
      cases d.value <;> rfl

theorem MadeOf.freeze {ds : List Attribute} {a : Attribute} (h : MadeOf ds a) :
    Inherits ds (Component.freeze a) :=
  ⟨⟨h.property_eq, h.value_eq, h.erasing_eq⟩, rfl⟩

end Attribute

namespace Series

private theorem structural?_consolidate (s : Series) (n : UInt32) :
    structural? { s with attributes := s.attributes.consolidate, editable := false } n =
      s.structural? n := by
  simp only [structural?, get?, view, consolidate]
  cases hb : s.attributes.buffer with
  | none => simp [hb]
  | some ix =>
    simp only [Option.getD_none, Option.getD_some, Index.map, SortedMap.get?_mapValues]
    cases ix.byNumber.get? n <;> rfl

end Series

instance : LawfulComponent Series where
  number_erasing _ := rfl
  name?_erasing _ := rfl
  number_setEditable _ _ := rfl
  name?_setEditable _ _ := rfl
  number_freeze _ := rfl
  name?_freeze s := Series.structural?_consolidate s Builtin.seriesName

namespace Series

/-- The series has the description of the first definition that sets one and attributes laid over
one another, and is no removal. -/
structure MadeOf (ds : List Series) (s : Series) : Prop where
  description_eq : s.description = ds.findSome? (·.description)
  attributes_holds : Holds Attribute.MadeOf (inForce · (ds.map (·.attributes))) s.attributes
  erasing_eq : s.erasing = false

/-- A frozen series with the description of the first definition that sets one, and with flattened
attributes. -/
structure Inherits (ds : List Series) (s : Series) : Prop where
  description_eq : s.description = ds.findSome? (·.description)
  attributes_flattens : Flattens Attribute.Inherits (ds.map (·.attributes)) s.attributes
  erasing_eq : s.erasing = false
  editable_eq : s.editable = false

theorem merge_eq_ok {s d t : Series} (h : s.merge d = .ok t) :
    ∃ c, mergeLevel (fun n => { number := n }) Attribute.merge s.attributes d.attributes = .ok c ∧
      t = { s with
        attributes := c, description := d.description.or s.description, erasing := false } := by
  obtain ⟨-, -, h⟩ := bind_eq_ok_iff.1 h
  obtain ⟨c, hc, h⟩ := bind_eq_ok_iff.1 h
  exact ⟨c, hc, by simpa [pure, Except.pure, eq_comm] using h⟩

theorem mergeRule : MergeRule (fun n => { number := n }) Series.merge MadeOf where
  number_empty _ := rfl
  number_merge s d t h := by
    obtain ⟨c, -, rfl⟩ := merge_eq_ok h
    rfl
  made_empty _ := ⟨rfl, holds_empty, rfl⟩
  made_merge ds s d t hs h := by
    obtain ⟨c, hc, rfl⟩ := merge_eq_ok h
    refine ⟨?_, hs.attributes_holds.mergeLevel Attribute.mergeRule hc, rfl⟩
    rw [List.findSome?_cons, ← hs.description_eq]
    cases d.description <;> rfl

theorem MadeOf.freeze {ds : List Series} {s : Series} (h : MadeOf ds s) :
    Inherits ds (Component.freeze s) :=
  ⟨h.description_eq, h.attributes_holds.flattens fun _ _ => Attribute.MadeOf.freeze, h.erasing_eq, rfl⟩

end Series

namespace Definitions

/-- Definitions flattened from levels, the most derived first. -/
structure Flattens (levels : List Definitions) (d : Definitions) : Prop where
  attributes : Container.Flattens Attribute.Inherits (levels.map (·.attributes)) d.attributes
  /-- The series, with attributes of their own. -/
  series : Container.Flattens Series.Inherits (levels.map (·.series)) d.series

/-- Definitions laid over one another, with nothing consolidated. -/
structure Lays (levels : List Definitions) (d : Definitions) : Prop where
  attributes : Holds Attribute.MadeOf (inForce · (levels.map (·.attributes))) d.attributes
  series : Holds Series.MadeOf (inForce · (levels.map (·.series))) d.series

theorem lays_nil : Lays [] {} := ⟨holds_empty, holds_empty⟩

theorem Lays.merge {levels : List Definitions} {level d d' : Definitions} (h : Lays levels d)
    (hm : d.merge level = .ok d') : Lays (level :: levels) d' := by
  obtain ⟨attributes, ha, hm⟩ := bind_eq_ok_iff.1 hm
  obtain ⟨series, hs, hm⟩ := bind_eq_ok_iff.1 hm
  obtain rfl : { attributes, series } = d' := by simpa [pure, Except.pure] using hm
  exact ⟨h.attributes.mergeLevel Attribute.mergeRule ha, h.series.mergeLevel Series.mergeRule hs⟩

theorem Lays.flattens {levels : List Definitions} {d : Definitions} (h : Lays levels d) :
    Flattens levels d.consolidate where
  attributes := h.attributes.flattens fun _ _ => Attribute.MadeOf.freeze
  series := h.series.flattens fun _ _ => Series.MadeOf.freeze

end Definitions

end ChronicleMeta
