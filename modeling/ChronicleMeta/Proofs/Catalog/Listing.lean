import ChronicleMeta.Proofs.Catalog.Definition
import ChronicleMeta.Proofs.Container.Listing
import ChronicleMeta.Proofs.Definitions

/-!
The definitions that the entries of a catalog stand for: each attribute and each series of a schema has
one, and so has each attribute of a series, unless a removal takes the place of it.
-/

namespace ChronicleMeta

open Container Component

variable {property : String → Except Error Property} {db : Database}

/-- The definition is the one that the entry asks for, its property found by name. -/
structure AttributeEntry.Describes (property : String → Except Error Property) (entry : AttributeEntry)
    (a : Attribute) : Prop where
  number_eq : a.number = entry.number
  erasing_eq : a.erasing = entry.erasing
  nothing : entry.erasing = true → a.property = none ∧ a.value = none
  property_eq : entry.erasing = false → match entry.property with
    | none => a.property = none
    | some name => ∃ p, property name = .ok p ∧ a.property = some p
  /-- The value, read by the property. -/
  value_eq : entry.erasing = false → match entry.value with
    | none => a.value = none
    | some text => ∃ p v, a.property = some p ∧ p.valueType.parse text = .ok v ∧ a.value = some v

namespace AttributeEntry

variable {entry : AttributeEntry} {a : Attribute}

/-- The value is set after the property, and leaves it. -/
private theorem value_of_build {a₁ : Attribute} (hvalue : a₁.value = none) (herasing : a₁.erasing = false)
    (h : (match entry.value with
      | some text => a₁.parseValue text
      | none => pure a₁) = .ok a) :
    a.number = a₁.number ∧ a.erasing = false ∧ a.property = a₁.property ∧ match entry.value with
      | none => a.value = none
      | some text => ∃ p v, a.property = some p ∧ p.valueType.parse text = .ok v ∧ a.value = some v := by
  cases htext : entry.value with
  | none =>
    rw [htext] at h
    obtain rfl := pure_eq_ok_iff.1 h
    exact ⟨rfl, herasing, rfl, hvalue⟩
  | some text =>
    simp only [htext] at h
    obtain ⟨p, v, hp, hv, h⟩ := Attribute.parseValue_eq_ok_iff.1 h
    obtain ⟨-, -, rfl⟩ := Attribute.setValue_eq_ok_iff.1 h
    exact ⟨rfl, by simp [herasing], rfl, p, v, hp, hv, rfl⟩

/-- What an entry is built into is what it asks for. -/
theorem describes_of_build (h : entry.build db = .ok a) : entry.Describes db.property a := by
  unfold build at h
  cases herasing : entry.erasing with
  | true =>
    simp only [herasing, if_true, Attribute.setErasing, Attribute.ensureEditable, ok_bind] at h
    obtain rfl := pure_eq_ok_iff.1 h
    refine ⟨rfl, herasing.symm, fun _ => ⟨rfl, rfl⟩, fun hnot => ?_, fun hnot => ?_⟩ <;>
      cases herasing.symm.trans hnot
  | false =>
    simp only [herasing, Bool.false_eq_true, if_false] at h
    obtain ⟨a₁, hnumber, hremoves, hnone, hproperty, h⟩ : ∃ a₁ : Attribute, a₁.number = entry.number ∧
        a₁.erasing = false ∧ a₁.value = none ∧
        (match entry.property with
          | none => a₁.property = none
          | some name => ∃ p, db.property name = .ok p ∧ a₁.property = some p) ∧
        (match entry.value with
          | some text => a₁.parseValue text
          | none => pure a₁) = .ok a := by
      cases hname : entry.property with
      | none =>
        rw [hname] at h
        exact ⟨{ number := entry.number }, rfl, rfl, rfl, rfl, h⟩
      | some name =>
        rw [hname] at h
        obtain ⟨p, hp, h⟩ := bind_eq_ok_iff.1 h
        exact ⟨{ number := entry.number, property := some p }, rfl, rfl, rfl, ⟨p, hp, rfl⟩, h⟩
    obtain ⟨hsame, hkept, hproperty', hvalue⟩ := value_of_build hnone hremoves h
    refine ⟨hsame.trans hnumber, hkept.trans herasing.symm, fun hnot => ?_, fun _ => ?_, fun _ => hvalue⟩
    · cases herasing.symm.trans hnot
    · rwa [hproperty']

theorem Describes.freeze (h : entry.Describes property a) : entry.Describes property (freeze a) :=
  ⟨h.number_eq, h.erasing_eq, h.nothing, h.property_eq, h.value_eq⟩

theorem Describes.setEditable (h : entry.Describes property a) (b : Bool) :
    entry.Describes property (setEditable b a) :=
  ⟨h.number_eq, h.erasing_eq, h.nothing, h.property_eq, h.value_eq⟩

/-- A removal is what an entry that removes asks for. -/
theorem describes_erasing (h : entry.erasing = true) :
    entry.Describes property (Component.erasing entry.number) where
  number_eq := rfl
  erasing_eq := h.symm
  nothing _ := ⟨rfl, rfl⟩
  property_eq hnot := by cases h.symm.trans hnot
  value_eq hnot := by cases h.symm.trans hnot

end AttributeEntry

def Series.custom? (s : Series) (n : UInt32) : Option Attribute :=
  if Builtin.firstCustom ≤ n then s.attributes.get? n else none

theorem Series.custom?_of_le {s : Series} {n : UInt32} (h : Builtin.firstCustom ≤ n) :
    s.custom? n = s.attributes.get? n := if_pos h

/-- The series is what the entry, which does not remove, asks for. -/
structure SeriesEntry.Defines (property : String → Except Error Property) (entry : SeriesEntry)
    (s : Series) : Prop where
  name_eq : s.name? = entry.name
  kind_eq : match entry.kind with
    | none => s.valueKind? = none
    | some name => ∃ kind, ValueKind.ofName name = .ok kind ∧ s.valueKind? = some kind
  timeDomain_eq : s.timeDomain? = entry.timeDomain
  description_eq : s.description = entry.description
  /-- The custom attributes. A removal takes the place of an attribute listed before it. -/
  attributes : LastOfEach AttributeEntry.number (AttributeEntry.Describes property) entry.attributes
    s.custom?
  /-- Nothing else may have a number that is listed before. -/
  repeated : entry.attributes.Pairwise fun a b => a.number = b.number → b.erasing = true

/-- The definition is the one that the entry asks for. -/
structure SeriesEntry.Describes (property : String → Except Error Property) (entry : SeriesEntry)
    (s : Series) : Prop where
  number_eq : s.number = entry.number
  erasing_eq : s.erasing = entry.erasing
  nothing : entry.erasing = true → s.description = none ∧ ∀ n, s.attributes.get? n = none
  defines : entry.erasing = false → entry.Defines property s

namespace Series

variable {s s' : Series} {n : UInt32} {text : String}

/-- A reserved attribute that is not there is added, with the value. -/
theorem setReserved_eq_ok {c c' : Container Attribute} {v : Value}
    (h : (setReserved c n v).commit = .ok ((), c')) (hc : c.committed = {}) (hfree : c.get? n = none) :
    c'.committed = {} ∧ (∃ a, a.value = some v ∧ c'.get? n = some a) ∧
      ∀ m, m ≠ n → c'.get? m = c.get? m := by
  have hcontains : c.contains n = false := SortedMap.contains_eq_false_iff.2 hfree
  simp only [setReserved, hcontains, Bool.false_eq_true, if_false] at h
  split at h
  next => cases h
  next p hp =>
    split at h
    next => cases h
    next a ha =>
      obtain ⟨_, -, ha⟩ := bind_eq_ok_iff.1 ha
      obtain rfl := pure_eq_ok_iff.1 ha
      rw [Outcome.commit_map, map_eq_ok_iff] at h
      obtain ⟨⟨added, c₁⟩, hadd, he⟩ := h
      obtain ⟨-, rfl⟩ := Prod.mk.inj he
      obtain rfl := added_of_free hc hfree hadd
      obtain ⟨hcommitted, -, hget⟩ := get?_of_add hc hadd
      refine ⟨hcommitted, ⟨_, rfl, (hget n).trans (if_pos rfl)⟩, fun m hm => ?_⟩
      exact (hget m).trans (if_neg hm)

theorem setStructural_eq_ok (h : (s.setStructural n text).commit = .ok ((), s'))
    (hcommitted : s.attributes.committed = {}) (hfree : s.attributes.get? n = none) :
    ∃ c, s' = { s with attributes := c, erasing := false } ∧ c.committed = {} ∧
      (∃ a, a.value = some (.text text) ∧ c.get? n = some a) ∧
      ∀ m, m ≠ n → c.get? m = s.attributes.get? m := by
  unfold setStructural whenEditable at h
  split at h
  next => cases h
  next =>
    rw [Outcome.commit_andThen] at h
    obtain ⟨⟨u, s₁⟩, hset, h⟩ := bind_eq_ok_iff.1 h
    obtain ⟨-, rfl⟩ := Prod.mk.inj (Except.ok.inj h)
    rw [Outcome.commit_inState, map_eq_ok_iff] at hset
    obtain ⟨⟨u', c⟩, hset, he⟩ := hset
    obtain ⟨-, rfl⟩ := Prod.mk.inj he
    exact ⟨c, rfl, setReserved_eq_ok hset hcommitted hfree⟩

/-- A text that is present is set, and nothing else changes. -/
theorem setPresent_eq_ok {α : Type} {set : Series → α → Edited Series Unit} {f : α → String}
    (hset : ∀ s a, set s a = s.setStructural n (f a)) {o : Option α} (h : setPresent set s o = .ok s')
    (herasing : s.erasing = false) (hcommitted : s.attributes.committed = {})
    (hfree : s.attributes.get? n = none) :
    ∃ c, s' = { s with attributes := c } ∧ c.committed = {} ∧ s'.structural? n = o.map f ∧
      ∀ m, m ≠ n → c.get? m = s.attributes.get? m := by
  cases o with
  | none =>
    obtain rfl := pure_eq_ok_iff.1 h
    exact ⟨s.attributes, rfl, hcommitted, by rw [structural?, hfree]; rfl, fun _ _ => rfl⟩
  | some a =>
    rw [setPresent, hset, map_eq_ok_iff] at h
    obtain ⟨⟨u, s₁⟩, h, rfl⟩ := h
    obtain ⟨c, rfl, hc, ⟨b, hb, hget⟩, hother⟩ := setStructural_eq_ok h hcommitted hfree
    refine ⟨c, by rw [← herasing], hc, ?_, hother⟩
    simp only [structural?, hget, Option.bind_some, hb, Value.text?, Option.map_some]

theorem setPresent_description_eq_ok {o : Option String}
    (h : setPresent setDescription s (o.map some) = .ok s') (herasing : s.erasing = false)
    (hnone : s.description = none) : s' = { s with description := o } := by
  cases o with
  | none =>
    obtain rfl := pure_eq_ok_iff.1 h
    rw [← hnone]
  | some text =>
    rw [Option.map_some, setPresent, map_eq_ok_iff] at h
    obtain ⟨⟨u, s₁⟩, h, rfl⟩ := h
    unfold setDescription whenEditable at h
    split at h
    next => cases h
    next =>
      obtain ⟨-, rfl⟩ := Prod.mk.inj (Except.ok.inj h)
      simp [herasing, Outcome.ok]

theorem whenCustom_eq_ok {α : Type} {act : Edited Series α} {r : α × Series}
    (h : (s.whenCustom n act).commit = .ok r) : Builtin.firstCustom ≤ n ∧ act.commit = .ok r := by
  unfold whenCustom at h
  split at h
  next => cases h
  next hcheck =>
    obtain ⟨_, -, hcheck⟩ := bind_eq_ok_iff.1 hcheck
    split_ifs at hcheck with hn
    exact ⟨UInt32.not_lt.1 hn, h⟩

theorem addAttribute_eq_ok {a : Attribute} (h : (s.addAttribute a).commit = .ok (true, s')) :
    Builtin.firstCustom ≤ a.number ∧ ∃ c, (s.attributes.add a).commit = .ok (true, c) ∧
      s' = { s with attributes := c, erasing := false } := by
  obtain ⟨hcustom, h⟩ := whenCustom_eq_ok h
  rw [Outcome.commit_andThen] at h
  obtain ⟨⟨added, s₁⟩, hs₁, h⟩ := bind_eq_ok_iff.1 h
  obtain ⟨rfl, rfl⟩ := Prod.mk.inj (Except.ok.inj h)
  rw [Outcome.commit_inState, map_eq_ok_iff] at hs₁
  obtain ⟨⟨added, c⟩, hadd, he⟩ := hs₁
  obtain ⟨rfl, rfl⟩ := Prod.mk.inj he
  exact ⟨hcustom, c, hadd, rfl⟩

end Series

namespace SeriesEntry

variable {entry : SeriesEntry} {a : AttributeEntry} {s s' : Series}

/-- An attribute of an entry is found under its number, which was free unless it is a removal. -/
theorem addAttribute_eq_ok (h : entry.addAttribute db s a = .ok s') (herasing : s.erasing = false)
    (hcommitted : s.attributes.committed = {}) :
    ∃ c x, s' = { s with attributes := c } ∧ c.committed = {} ∧ Builtin.firstCustom ≤ a.number ∧
      a.Describes db.property x ∧ (a.erasing = false → s.attributes.get? a.number = none) ∧
      ∀ m, c.get? m = if m = a.number then some x else s.attributes.get? m := by
  unfold addAttribute at h
  cases hremoves : a.erasing with
  | true =>
    simp only [hremoves, if_true] at h
    obtain ⟨⟨u, s₁⟩, hs₁, h⟩ := bind_eq_ok_iff.1 h
    obtain rfl := pure_eq_ok_iff.1 h
    rw [problem_lift_eq_ok_iff] at hs₁
    obtain ⟨hcustom, hs₁⟩ := Series.whenCustom_eq_ok hs₁
    rw [Outcome.commit_inState, map_eq_ok_iff] at hs₁
    obtain ⟨⟨u', c⟩, herase, he⟩ := hs₁
    obtain ⟨-, rfl⟩ := Prod.mk.inj he
    obtain ⟨hc, hget⟩ := get?_of_erase hcommitted herase
    exact ⟨c, _, rfl, hc, hcustom, AttributeEntry.describes_erasing hremoves, nofun, hget⟩
  | false =>
    simp only [hremoves, Bool.false_eq_true, if_false] at h
    obtain ⟨d, hd, h⟩ := bind_eq_ok_iff.1 h
    obtain ⟨⟨added, s₁⟩, hs₁, h⟩ := bind_eq_ok_iff.1 h
    rw [problem_lift_eq_ok_iff] at hd hs₁
    cases added with
    | false => cases h
    | true =>
      obtain rfl := pure_eq_ok_iff.1 h
      have hdescribes := AttributeEntry.describes_of_build hd
      have hnumber : Component.number (setEditable true d) = a.number := hdescribes.number_eq
      obtain ⟨hcustom, c, hadd, rfl⟩ := Series.addAttribute_eq_ok hs₁
      obtain ⟨hc, hfree, hget⟩ := get?_of_add hcommitted hadd
      rw [hnumber] at hfree
      simp only [hnumber] at hget
      exact ⟨c, _, by rw [← herasing], hc, hdescribes.number_eq ▸ hcustom,
        hdescribes.setEditable true, fun _ => hfree, hget⟩

/-- The attributes of a list are added in turn. -/
theorem addAttributes_eq_ok {l : List AttributeEntry}
    (h : l.foldlM (entry.addAttribute db) s = .ok s') (herasing : s.erasing = false)
    (hcommitted : s.attributes.committed = {})
    (hnone : ∀ n, Builtin.firstCustom ≤ n → s.attributes.get? n = none) :
    ∃ c, s' = { s with attributes := c } ∧ c.committed = {} ∧
      LastOfEach AttributeEntry.number (AttributeEntry.Describes db.property) l s'.custom? ∧
      l.Pairwise (fun a b => a.number = b.number → b.erasing = true) ∧
      ∀ n, n < Builtin.firstCustom → c.get? n = s.attributes.get? n := by
  refine invariant_of_foldlM (I := fun done s' => ∃ c, s' = { s with attributes := c } ∧
      c.committed = {} ∧
      LastOfEach AttributeEntry.number (AttributeEntry.Describes db.property) done s'.custom? ∧
      done.Pairwise (fun a b => a.number = b.number → b.erasing = true) ∧
      ∀ n, n < Builtin.firstCustom → c.get? n = s.attributes.get? n) ?_ ?_ h
  · rintro done s₁ a s₂ ⟨c, rfl, hc, hlast, hrepeated, hreserved⟩ hadd
    obtain ⟨c', x, rfl, hc', hcustom, hx, hfree, hget⟩ := addAttribute_eq_ok hadd herasing hc
    refine ⟨c', rfl, hc', hlast.concat hx fun n => ?_, ?_, fun n hn => ?_⟩
    · simp only [Series.custom?, hget]
      split_ifs with hn hm hm
      · rfl
      · rfl
      · exact absurd (hm ▸ hcustom) hn
      · rfl
    · refine List.pairwise_append.2 ⟨hrepeated, List.pairwise_singleton _ _, fun b hb a' ha' hsame => ?_⟩
      obtain rfl := List.mem_singleton.1 ha'
      -- the number of anything but a removal has been free
      by_contra hnot
      have hn := hfree (by simpa using hnot)
      rw [← Series.custom?_of_le hcustom, hlast.eq_none_iff] at hn
      exact hn (List.mem_map.2 ⟨b, hb, hsame⟩)
    · have hne : n ≠ a.number := by
        rintro rfl
        exact absurd hcustom (UInt32.not_le.2 hn)
      rw [hget, if_neg hne]
      exact hreserved n hn
  · refine ⟨s.attributes, rfl, hcommitted, lastOfEach_nil fun n => ?_, .nil, fun _ _ => rfl⟩
    rw [Series.custom?]
    split_ifs with hn
    · exact hnone n hn
    · rfl

/-- The kind of the name, if there is one. -/
private def KindListed (entry : SeriesEntry) (kind : Option ValueKind) : Prop :=
  match entry.kind with
  | none => kind = none
  | some name => ∃ k, ValueKind.ofName name = .ok k ∧ kind = some k

/-- A series in which everything that the entry lists has been set but the attributes. -/
private structure Prepared (entry : SeriesEntry) (s : Series) : Prop where
  number_eq : s.number = entry.number
  erasing_eq : s.erasing = false
  committed_eq : s.attributes.committed = {}
  name_eq : s.name? = entry.name
  kind_eq : KindListed entry s.valueKind?
  timeDomain_eq : s.timeDomain? = entry.timeDomain
  description_eq : s.description = entry.description
  free : ∀ n, Builtin.firstCustom ≤ n → s.attributes.get? n = none

private theorem prepared_of_setPresent {kind : Option ValueKind} {s₁ s₂ s₃ : Series}
    (hkind : KindListed entry kind)
    (h₁ : setPresent Series.setName { number := entry.number } entry.name = .ok s₁)
    (h₂ : setPresent Series.setValueKind s₁ kind = .ok s₂)
    (h₃ : setPresent Series.setTimeDomain s₂ entry.timeDomain = .ok s₃)
    (h : setPresent Series.setDescription s₃ (entry.description.map some) = .ok s) :
    Prepared entry s := by
  obtain ⟨c₁, rfl, hc₁, hnamed, hother₁⟩ :=
    Series.setPresent_eq_ok (f := id) (fun _ _ => rfl) h₁ rfl rfl rfl
  obtain ⟨c₂, rfl, hc₂, hkinded, hother₂⟩ := Series.setPresent_eq_ok (f := ValueKind.name)
    (fun _ _ => rfl) h₂ rfl hc₁ (hother₁ _ (by decide))
  obtain ⟨c₃, rfl, hc₃, htimed, hother₃⟩ := Series.setPresent_eq_ok (f := id)
    (fun _ _ => rfl) h₃ rfl hc₂ ((hother₂ _ (by decide)).trans (hother₁ _ (by decide)))
  obtain rfl := Series.setPresent_description_eq_ok h rfl rfl
  -- each text is left by what is set after it
  have hname : c₃.get? Builtin.seriesName = c₁.get? Builtin.seriesName :=
    (hother₃ _ (by decide)).trans (hother₂ _ (by decide))
  have hkindText : c₃.get? Builtin.seriesKind = c₂.get? Builtin.seriesKind := hother₃ _ (by decide)
  have hvalueKind : Series.valueKind? { number := entry.number, attributes := c₃ } = kind := by
    simp only [Series.structural?] at hkinded
    simp only [Series.valueKind?, Series.structural?, hkindText, hkinded]
    cases kind with
    | none => rfl
    | some kind => cases kind <;> rfl
  refine ⟨rfl, rfl, hc₃, ?_, hvalueKind.symm ▸ hkind, ?_, rfl, fun n hn => ?_⟩
  · simpa [Series.name?, Series.structural?, hname] using hnamed
  · simpa [Series.timeDomain?, Series.structural?] using htimed
  · have hne : ∀ m, m < Builtin.firstCustom → n ≠ m := by
      rintro m hm rfl
      exact absurd hn (UInt32.not_le.2 hm)
    rw [hother₃ n (hne _ (by decide)), hother₂ n (hne _ (by decide)), hother₁ n (hne _ (by decide))]
    rfl

/-- The attributes that are added to a series leave the rest as it is. -/
private theorem Prepared.describes (h : Prepared entry s) (herasing : entry.erasing = false)
    (hs' : entry.attributes.foldlM (entry.addAttribute db) s = .ok s') :
    entry.Describes db.property s' ∧ s'.attributes.committed = {} := by
  obtain ⟨c, rfl, hc, hlast, hrepeated, hreserved⟩ :=
    addAttributes_eq_ok hs' h.erasing_eq h.committed_eq h.free
  have hstructural : ∀ n, n < Builtin.firstCustom →
      Series.structural? { s with attributes := c } n = s.structural? n := by
    intro n hn
    rw [Series.structural?, Series.structural?, hreserved n hn]
  refine ⟨⟨h.number_eq, h.erasing_eq.trans herasing.symm, fun hnot => ?_, fun _ => ?_⟩, hc⟩
  · cases herasing.symm.trans hnot
  · have hkind : Series.valueKind? { s with attributes := c } = s.valueKind? := by
      rw [Series.valueKind?, Series.valueKind?, hstructural _ (by decide)]
    exact {
      name_eq := (hstructural _ (by decide)).trans h.name_eq
      kind_eq := hkind ▸ h.kind_eq
      timeDomain_eq := (hstructural _ (by decide)).trans h.timeDomain_eq
      description_eq := h.description_eq
      attributes := hlast
      repeated := hrepeated }

theorem describes_of_build (h : entry.build db = .ok s) :
    entry.Describes db.property s ∧ s.attributes.committed = {} := by
  unfold build at h
  cases herasing : entry.erasing with
  | true =>
    simp only [herasing, if_true] at h
    obtain ⟨⟨u, s₁⟩, hs₁, h⟩ := bind_eq_ok_iff.1 h
    obtain rfl := pure_eq_ok_iff.1 h
    rw [problem_lift_eq_ok_iff] at hs₁
    obtain ⟨-, rfl⟩ := Prod.mk.inj (Except.ok.inj hs₁)
    refine ⟨⟨rfl, herasing.symm, fun _ => ⟨rfl, fun _ => rfl⟩, fun hnot => ?_⟩, rfl⟩
    cases herasing.symm.trans hnot
  | false =>
    simp only [herasing, Bool.false_eq_true, if_false] at h
    obtain ⟨s₁, h₁, h⟩ := bind_eq_ok_iff.1 h
    obtain ⟨kind, hkind, h⟩ := bind_eq_ok_iff.1 h
    obtain ⟨s₂, h₂, h⟩ := bind_eq_ok_iff.1 h
    obtain ⟨s₃, h₃, h⟩ := bind_eq_ok_iff.1 h
    obtain ⟨s₄, h₄, h⟩ := bind_eq_ok_iff.1 h
    rw [problem_lift_eq_ok_iff] at h₁ h₂ h₃ h₄
    have hlisted : KindListed entry kind := by
      unfold KindListed
      cases hname : entry.kind with
      | none =>
        rw [hname] at hkind
        exact (pure_eq_ok_iff.1 hkind).symm
      | some name =>
        rw [hname] at hkind
        obtain ⟨k, hk, hkind⟩ := map_eq_ok_iff.1 hkind
        exact ⟨k, problem_lift_eq_ok_iff.1 hk, hkind.symm⟩
    exact (prepared_of_setPresent hlisted h₁ h₂ h₃ h₄).describes herasing h

/-- A series is what it was after its attributes have been frozen. -/
theorem Describes.freeze (h : entry.Describes property s) (hcommitted : s.attributes.committed = {}) :
    entry.Describes property (Component.freeze s) := by
  have hget : ∀ n, (Component.freeze s).attributes.get? n = (s.attributes.get? n).map Component.freeze := by
    intro n
    rw [get?_eq_draft hcommitted]
    exact get?_consolidate hcommitted n
  have hstructural : ∀ n, (Component.freeze s).structural? n = s.structural? n := by
    intro n
    rw [Series.structural?, hget, Series.structural?]
    cases s.attributes.get? n <;> rfl
  have hcustom : (Component.freeze s).custom? = fun n => (s.custom? n).map Component.freeze := by
    funext n
    rw [Series.custom?, hget, Series.custom?]
    split_ifs <;> rfl
  refine ⟨h.number_eq, h.erasing_eq, fun herasing => ⟨(h.nothing herasing).1, fun n => ?_⟩,
    fun herasing => ?_⟩
  · rw [hget, (h.nothing herasing).2]
    rfl
  · obtain ⟨hname, hkind, htimeDomain, hdescription, hattributes, hrepeated⟩ := h.defines herasing
    refine ⟨(hstructural _).trans hname, ?_, (hstructural _).trans htimeDomain, hdescription, ?_, hrepeated⟩
    · rw [Series.valueKind?, hstructural]
      exact hkind
    · rw [hcustom]
      exact hattributes.map Component.freeze fun _ _ hx => hx.freeze

theorem Describes.setEditable (h : entry.Describes property s) (b : Bool) :
    entry.Describes property (setEditable b s) :=
  ⟨h.number_eq, h.erasing_eq, h.nothing, fun herasing =>
    let ⟨hname, hkind, htimeDomain, hdescription, hattributes, hrepeated⟩ := h.defines herasing
    ⟨hname, hkind, htimeDomain, hdescription, hattributes, hrepeated⟩⟩

end SeriesEntry

theorem Blueprint.requireFree_eq_ok {σ : Type} {container : String} {n : UInt32} {r : Edited σ Bool}
    {u : Unit} {s : σ} (h : (requireFree container n r).commit = .ok (u, s)) :
    r.commit = .ok (true, s) := by
  obtain ⟨result, s'⟩ := r
  rcases result with e | added
  · cases h
  · cases added with
    | false => cases h
    | true =>
      obtain ⟨-, rfl⟩ := Prod.mk.inj (Except.ok.inj h)
      rfl

theorem Definitions.addAttribute_eq_ok {d d' : Definitions} {a : Attribute} {u : Unit}
    (h : d.addAttribute a = .ok (u, d')) :
    ∃ c, (d.attributes.add a).commit = .ok (true, c) ∧ d' = { d with attributes := c } := by
  obtain ⟨⟨u', c⟩, hadd, he⟩ := map_eq_ok_iff.1 h
  obtain ⟨-, rfl⟩ := Prod.mk.inj he
  exact ⟨c, Blueprint.requireFree_eq_ok hadd, rfl⟩

theorem Definitions.addSeries_eq_ok {d d' : Definitions} {s : Series} {u : Unit}
    (h : d.addSeries s = .ok (u, d')) :
    ∃ c, (d.series.add s).commit = .ok (true, c) ∧ d' = { d with series := c } := by
  obtain ⟨⟨u', c⟩, hadd, he⟩ := map_eq_ok_iff.1 h
  obtain ⟨-, rfl⟩ := Prod.mk.inj he
  exact ⟨c, Blueprint.requireFree_eq_ok hadd, rfl⟩

/-- The definitions are those that the entry lists, one for each of its entries. -/
structure SchemaEntry.Describes (property : String → Except Error Property) (entry : SchemaEntry)
    (d : Definitions) : Prop where
  attributes : OneOfEach AttributeEntry.number (AttributeEntry.Describes property) entry.attributes
    d.attributes.get?
  series : OneOfEach SeriesEntry.number (SeriesEntry.Describes property) entry.series d.series.get?

namespace SchemaEntry

variable {entry : SchemaEntry} {b b' : Blueprint}

/-- The attributes of a list are added, each under a number of its own, and nothing else changes. -/
private theorem lists_attributes {l : List AttributeEntry} (hb : b.Defines)
    (hempty : b.definitions.attributes = {})
    (h : l.foldlM (fun (b : Blueprint) (a : AttributeEntry) =>
      (do return (← (b.addAttribute (← a.build db)).commit).2 : Except Problem Blueprint)) b = .ok b') :
    b'.Defines ∧ b'.definitions.series = b.definitions.series ∧ b'.definitions.attributes.Lists
      AttributeEntry.number (AttributeEntry.Describes db.property) l := by
  refine invariant_of_foldlM (I := fun done b' => Blueprint.Defines b' ∧
    b'.definitions.series = b.definitions.series ∧
    b'.definitions.attributes.Lists AttributeEntry.number (AttributeEntry.Describes db.property) done)
    ?_ ⟨hb, rfl, by rw [hempty]; exact lists_nil⟩ h
  rintro done b₁ a b₂ ⟨hb₁, hsame, hdone⟩ hstep
  obtain ⟨x, hx, hstep⟩ := bind_eq_ok_iff.1 hstep
  obtain ⟨added, hadded, hstep⟩ := bind_eq_ok_iff.1 hstep
  obtain rfl := pure_eq_ok_iff.1 hstep
  rw [problem_lift_eq_ok_iff] at hx hadded
  rw [hb₁.commit_addAttribute, map_eq_ok_iff] at hadded
  obtain ⟨⟨u, d⟩, hd, rfl⟩ := hadded
  obtain ⟨c, hc, rfl⟩ := Definitions.addAttribute_eq_ok hd
  have hdescribes := AttributeEntry.describes_of_build hx
  exact ⟨hb₁.redefine _, hsame, hdone.add hc hdescribes.number_eq (hdescribes.setEditable true)⟩

private theorem lists_series {l : List SeriesEntry} (hb : b.Defines)
    (hempty : b.definitions.series = {})
    (h : l.foldlM (fun (b : Blueprint) (s : SeriesEntry) =>
      (do return (← (b.addSeries (← s.build db)).commit).2 : Except Problem Blueprint)) b = .ok b') :
    b'.definitions.attributes = b.definitions.attributes ∧ b'.definitions.series.Lists
      SeriesEntry.number (fun e s => e.Describes db.property s ∧ s.attributes.committed = {}) l := by
  refine And.right (invariant_of_foldlM (I := fun done b' => Blueprint.Defines b' ∧
    b'.definitions.attributes = b.definitions.attributes ∧ b'.definitions.series.Lists
      SeriesEntry.number (fun e s => e.Describes db.property s ∧ s.attributes.committed = {}) done)
    ?_ ⟨hb, rfl, by rw [hempty]; exact lists_nil⟩ h)
  rintro done b₁ s b₂ ⟨hb₁, hsame, hdone⟩ hstep
  obtain ⟨x, hx, hstep⟩ := bind_eq_ok_iff.1 hstep
  obtain ⟨added, hadded, hstep⟩ := bind_eq_ok_iff.1 hstep
  obtain rfl := pure_eq_ok_iff.1 hstep
  rw [problem_lift_eq_ok_iff, hb₁.commit_addSeries, map_eq_ok_iff] at hadded
  obtain ⟨⟨u, d⟩, hd, rfl⟩ := hadded
  obtain ⟨c, hc, rfl⟩ := Definitions.addSeries_eq_ok hd
  obtain ⟨hdescribes, hcommitted⟩ := SeriesEntry.describes_of_build hx
  exact ⟨hb₁.redefine _, hsame,
    hdone.add hc hdescribes.number_eq ⟨hdescribes.setEditable true, hcommitted⟩⟩

/-- A session without definitions that has got those of the entry has exactly those that the entry
lists, once it is closed. -/
theorem describes_of_addDefinitions (hb : b.Defines) (hempty : b.definitions = {})
    (h : entry.addDefinitions db b = .ok b') : entry.Describes db.property b'.definitions.consolidate := by
  obtain ⟨b₁, hattributes, hseries⟩ := bind_eq_ok_iff.1 h
  obtain ⟨hb₁, hnone, hattributes⟩ := lists_attributes hb (by rw [hempty]) hattributes
  obtain ⟨hsame, hseries⟩ := lists_series hb₁ (by rw [hnone, hempty]) hseries
  constructor
  · rw [Definitions.consolidate, hsame]
    exact hattributes.consolidate fun _ _ hx => hx.freeze
  · exact hseries.consolidate fun _ _ hx => hx.1.freeze hx.2

end SchemaEntry

end ChronicleMeta
