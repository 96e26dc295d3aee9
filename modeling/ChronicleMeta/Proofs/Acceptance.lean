import ChronicleMeta.Proofs.Container.Acceptance
import ChronicleMeta.Proofs.Resolution

/-!
Which chains of schemas can be flattened. Every level has to leave definitions whose values are of
the types of their properties and that have names of their own, and at no level a definition may take
a name that a higher number inherits.
-/

namespace ChronicleMeta

open Container

namespace Attribute

/-- An attribute made of definitions, while it may be changed. -/
structure Drafts (ds : List Attribute) (a : Attribute) : Prop extends MadeOf ds a where
  editable_eq : a.editable = true

/-- The value that the definitions set, the latest first, is one of the property that they set. -/
def Fits (ds : List Attribute) : Prop :=
  checkPair (ds.findSome? (·.property)) (ds.findSome? (·.value)) = .ok ()

/-- The name of an attribute made of the definitions. -/
def nameOf (ds : List Attribute) : Option String := (ds.findSome? (·.property)).map (·.name)

theorem merge_ok_iff {ds : List Attribute} {a d : Attribute} (h : Drafts ds a) :
    (∃ b, a.merge d = .ok b) ↔ Fits (d :: ds) := by
  have hproperty : (d :: ds).findSome? (·.property) = d.property.or a.property := by
    rw [List.findSome?_cons, h.property_eq]
    cases d.property <;> rfl
  have hvalue : (d :: ds).findSome? (·.value) = d.value.or a.value := by
    rw [List.findSome?_cons, h.value_eq]
    cases d.value <;> rfl
  rw [exists_merge_iff, Fits, hproperty, hvalue]
  exact and_iff_right h.editable_eq

theorem judgedRule : JudgedRule (fun n => { number := n }) Attribute.merge Drafts (fun _ => True) Fits
    nameOf where
  number_empty := mergeRule.number_empty
  number_merge := mergeRule.number_merge
  made_empty n := ⟨mergeRule.made_empty n, rfl⟩
  made_merge ds a d b ha h := by
    refine ⟨mergeRule.made_merge ds a d b ha.toMadeOf h, ?_⟩
    obtain ⟨-, -, rfl⟩ := merge_eq_ok_iff.1 h
    exact ha.editable_eq
  nameOf_nil := rfl
  name?_eq ds a ha := congrArg (Option.map (·.name)) ha.property_eq
  merge_ok_iff ds a d ha _ := merge_ok_iff ha

end Attribute

namespace Series

/-- A series made of definitions, while it may be changed. -/
structure Drafts (ds : List Series) (s : Series) : Prop where
  attributes_holds : Holds Attribute.Drafts (inForce · (ds.map (·.attributes))) s.attributes
  editable_eq : s.editable = true

/-- The attributes of the latest definition fit over those of the others. -/
def Fits : List Series → Prop
  | [] => True
  | d :: ds => Container.Fits Attribute.Fits Attribute.nameOf d.attributes (ds.map (·.attributes))

/-- No attribute of the latest definition takes a name that a higher number inherits from the others. -/
def Untaken : List Series → Prop
  | [] => True
  | d :: ds => Container.Untaken Attribute.nameOf d.attributes (ds.map (·.attributes))

/-- The name of a series made of the definitions, the text of its first attribute. -/
def nameOf (ds : List Series) : Option String :=
  ((inForce Builtin.seriesName (ds.map (·.attributes))).findSome? (·.value)).bind (·.text?)

theorem Drafts.name?_eq {ds : List Series} {s : Series} (h : Drafts ds s) : s.name? = nameOf ds := by
  have hget := get?_eq_draft h.attributes_holds.committed_eq Builtin.seriesName
  have hslot := h.attributes_holds.slot Builtin.seriesName
  unfold name? structural? nameOf
  rw [hget]
  cases ha : s.attributes.draft.byNumber.get? Builtin.seriesName with
  | none =>
    rw [ha] at hslot
    rw [show inForce Builtin.seriesName (ds.map (·.attributes)) = [] from hslot]
    rfl
  | some a =>
    rw [ha] at hslot
    rw [← hslot.2.value_eq]
    rfl

theorem merge_ok_iff {ds : List Series} {s d : Series} (h : Drafts ds s) (hd : d.attributes.Keyed) :
    (∃ t, s.merge d = .ok t) ↔ Fits (d :: ds) ∧ Untaken (d :: ds) := by
  have heditable : s.ensureEditable = .ok () := by rw [ensureEditable, h.editable_eq, if_pos rfl]
  have hlevel := h.attributes_holds.mergeLevel_ok_iff Attribute.judgedRule hd fun _ _ => trivial
  unfold Fits Untaken
  rw [← hlevel]
  constructor
  · rintro ⟨t, ht⟩
    obtain ⟨c, hc, -⟩ := merge_eq_ok ht
    exact ⟨c, hc⟩
  · rintro ⟨c, hc⟩
    exact ⟨_, bind_eq_ok_iff.2 ⟨(), heditable, bind_eq_ok_iff.2 ⟨c, hc, rfl⟩⟩⟩

theorem judgedRule : JudgedRule (fun n => { number := n }) Series.merge Drafts (·.attributes.Keyed)
    (fun ds => Fits ds ∧ Untaken ds) nameOf where
  number_empty := mergeRule.number_empty
  number_merge := mergeRule.number_merge
  made_empty _ := ⟨holds_empty, rfl⟩
  made_merge ds s d t hs h := by
    obtain ⟨c, hc, rfl⟩ := merge_eq_ok h
    exact ⟨hs.attributes_holds.mergeLevel Attribute.judgedRule.toMergeRule hc, hs.editable_eq⟩
  nameOf_nil := rfl
  name?_eq _ _ h := h.name?_eq
  merge_ok_iff _ _ _ h hd := merge_ok_iff h hd

end Series

namespace Definitions

/-- Each definition is under its own number. -/
structure Keyed (d : Definitions) : Prop where
  attributes : d.attributes.Keyed
  series : d.series.Keyed
  nested : ∀ s ∈ d.series.components, s.attributes.Keyed

/-- The level laid over the bases leaves definitions whose values are of the types of their properties
and that have names of their own: attributes, series, and attributes within each series. -/
structure Fits (level : Definitions) (bases : List Definitions) : Prop where
  attributes :
    Container.Fits Attribute.Fits Attribute.nameOf level.attributes (bases.map (·.attributes))
  series : Container.Fits Series.Fits Series.nameOf level.series (bases.map (·.series))

/-- No definition of the level takes a name that a higher number inherits from the bases: among
attributes, series, and attributes within each series. -/
structure Untaken (level : Definitions) (bases : List Definitions) : Prop where
  attributes : Container.Untaken Attribute.nameOf level.attributes (bases.map (·.attributes))
  series : Container.Untaken Series.nameOf level.series (bases.map (·.series))
  nested : ∀ n, level.series.definitionsOf n ≠ [] →
    Series.Untaken (inForce n (level.series :: bases.map (·.series)))

/-- Definitions laid over one another, which may be changed. -/
structure Drafts (levels : List Definitions) (d : Definitions) : Prop where
  attributes : Holds Attribute.Drafts (inForce · (levels.map (·.attributes))) d.attributes
  series : Holds Series.Drafts (inForce · (levels.map (·.series))) d.series

theorem Drafts.merge {levels : List Definitions} {level d d' : Definitions} (h : Drafts levels d)
    (hm : d.merge level = .ok d') : Drafts (level :: levels) d' := by
  obtain ⟨attributes, ha, hm⟩ := bind_eq_ok_iff.1 hm
  obtain ⟨series, hs, hm⟩ := bind_eq_ok_iff.1 hm
  obtain rfl := pure_eq_ok_iff.1 hm
  exact ⟨h.attributes.mergeLevel Attribute.judgedRule.toMergeRule ha,
    h.series.mergeLevel Series.judgedRule.toMergeRule hs⟩

theorem Drafts.merge_ok_iff {levels : List Definitions} {level d : Definitions} (h : Drafts levels d)
    (hkeyed : level.Keyed) : (∃ d', d.merge level = .ok d') ↔ level.Fits levels ∧ level.Untaken levels := by
  have hattributes := h.attributes.mergeLevel_ok_iff Attribute.judgedRule hkeyed.attributes
    fun _ _ => trivial
  have hseries := h.series.mergeLevel_ok_iff Series.judgedRule hkeyed.series hkeyed.nested
  have hmerge : (∃ d', d.merge level = .ok d') ↔
      (∃ c, mergeLevel (fun n => { number := n }) Attribute.merge d.attributes level.attributes = .ok c) ∧
        ∃ c, mergeLevel (fun n => { number := n }) Series.merge d.series level.series = .ok c := by
    constructor
    · rintro ⟨d', hd'⟩
      obtain ⟨attributes, ha, hd'⟩ := bind_eq_ok_iff.1 hd'
      obtain ⟨series, hs, -⟩ := bind_eq_ok_iff.1 hd'
      exact ⟨⟨attributes, ha⟩, series, hs⟩
    · rintro ⟨⟨attributes, ha⟩, series, hs⟩
      exact ⟨_, bind_eq_ok_iff.2 ⟨attributes, ha, bind_eq_ok_iff.2 ⟨series, hs, rfl⟩⟩⟩
  rw [hmerge, hattributes, hseries]
  constructor
  · rintro ⟨⟨hfits, huntaken⟩, hseries, huntaken'⟩
    exact ⟨⟨hfits, fun n hn => (hseries.pairs n hn).1, hseries.names⟩,
      ⟨huntaken, huntaken', fun n hn => (hseries.pairs n hn).2⟩⟩
  · rintro ⟨hfits, huntaken⟩
    exact ⟨⟨hfits.attributes, huntaken.attributes⟩,
      ⟨fun n hn => ⟨hfits.series.pairs n hn, huntaken.nested n hn⟩, hfits.series.names⟩,
      huntaken.series⟩

end Definitions

namespace Blueprint

private theorem drafts_of_foldrM {levels : List Definitions} {d : Definitions}
    (h : levels.foldrM (fun level d => Definitions.merge d level) {} = .ok d) :
    Definitions.Drafts levels d :=
  invariant_of_foldrM ⟨holds_empty, holds_empty⟩ (fun _ _ _ _ h => h.merge) h

private theorem foldrM_ok_iff {levels : List Definitions} (hkeyed : ∀ d ∈ levels, d.Keyed) :
    (∃ d, levels.foldrM (fun level d => Definitions.merge d level) {} = .ok d) ↔
      ∀ level bases, level :: bases <:+ levels → level.Fits bases ∧ level.Untaken bases := by
  induction levels with
  | nil => simp [pure, Except.pure]
  | cons level bases ih =>
    obtain ⟨hlevel, hbases⟩ := List.forall_mem_cons.1 hkeyed
    rw [List.foldrM_cons]
    constructor
    · rintro ⟨d, hfold⟩
      obtain ⟨below, hbelow, hd⟩ := bind_eq_ok_iff.1 hfold
      intro level' bases' hsuffix
      obtain heq | hsuffix := List.suffix_cons_iff.1 hsuffix
      · obtain ⟨rfl, rfl⟩ := List.cons.inj heq
        exact ((drafts_of_foldrM hbelow).merge_ok_iff hlevel).1 ⟨d, hd⟩
      · exact (ih hbases).1 ⟨below, hbelow⟩ level' bases' hsuffix
    · intro h
      obtain ⟨below, hbelow⟩ := (ih hbases).2 fun level' bases' hsuffix =>
        h level' bases' (hsuffix.trans (List.suffix_cons level bases))
      obtain ⟨d, hd⟩ := ((drafts_of_foldrM hbelow).merge_ok_iff hlevel).2
        (h level bases (List.suffix_refl _))
      exact ⟨d, bind_eq_ok_iff.2 ⟨below, hbelow, hd⟩⟩

theorem flatten_ok_iff {levels : List Definitions} (hkeyed : ∀ d ∈ levels, d.Keyed) :
    (∃ d, flatten levels = .ok d) ↔
      ∀ level bases, level :: bases <:+ levels → level.Fits bases ∧ level.Untaken bases := by
  rw [← foldrM_ok_iff hkeyed]
  unfold flatten
  rw [List.foldlM_reverse]
  constructor
  · rintro ⟨d, hd⟩
    obtain ⟨laid, hlaid, -⟩ := map_eq_ok_iff.1 hd
    exact ⟨laid, hlaid⟩
  · rintro ⟨d, hd⟩
    exact ⟨_, map_eq_ok_iff.2 ⟨d, hd, rfl⟩⟩

/-- A schema whose chain can be followed is merged exactly if each level of the chain, laid over those
below it, leaves definitions whose values are of the types of their properties and that have names of
their own, and if no definition of a level takes a name that a higher number inherits at this level,
not even one that the level gives another name. -/
theorem merge_succeeds_iff {source : Source} {maxDepth : Nat} {b : Blueprint} {chain : List Blueprint}
    (hchain : b.chain source maxDepth = .ok chain) (hkeyed : ∀ c ∈ chain, c.definitions.Keyed) :
    (∃ schema, b.merge source maxDepth = .ok schema) ↔
      ∀ level bases, level :: bases <:+ chain.map (·.definitions) →
        level.Fits bases ∧ level.Untaken bases := by
  have hlevels : ∀ d ∈ chain.map (·.definitions), d.Keyed := List.forall_mem_map.2 hkeyed
  rw [← flatten_ok_iff hlevels]
  constructor
  · rintro ⟨schema, hschema⟩
    obtain ⟨chain', d, hchain', hd, -⟩ := merge_eq_ok hschema
    obtain rfl := Except.ok.inj (hchain.symm.trans hchain')
    exact ⟨d, hd⟩
  · rintro ⟨d, hd⟩
    exact ⟨_, bind_eq_ok_iff.2 ⟨chain, hchain, bind_eq_ok_iff.2 ⟨d, hd, rfl⟩⟩⟩

def samplePair (p q : Property) : Definitions where
  attributes := { committed := {
    byNumber := .ofList [(1, { number := 1, property := some p }), (2, { number := 2, property := some q })]
    byName := .ofList [(p.name, 1), (q.name, 2)] } }

def sampleLower : Blueprint where
  surrogate := .committed ⟨1⟩ .schema 1
  name := "lower"
  definitions := samplePair Builtin.nameProperty Builtin.kindProperty

def sampleUpper (p q : Property) : Blueprint where
  surrogate := .committed ⟨1⟩ .schema 2
  name := "upper"
  base := some "lower"
  definitions := samplePair p q

def sampleBase : Source := fun name => .ok (if name = "lower" then some sampleLower else none)

theorem keyed_samplePair (p q : Property) : (samplePair p q).Keyed where
  attributes n a ha := by
    have hmem := SortedMap.mem_toList_iff.2 ha
    have hlist : (samplePair p q).attributes.view.byNumber.toList =
        [(1, { number := 1, property := some p }), (2, { number := 2, property := some q })] := rfl
    rw [hlist] at hmem
    simp only [List.mem_cons, Prod.mk.injEq, List.not_mem_nil, or_false] at hmem
    rcases hmem with ⟨rfl, rfl⟩ | ⟨rfl, rfl⟩ <;> rfl
  series n s hs := by cases hs
  nested s hs := by cases hs

/-- The name of the first attribute is moved to the second, whose own name is given up. -/
theorem merge_succeeds_iff_sample :
    (∃ schema, (sampleUpper Builtin.timeDomainProperty Builtin.nameProperty).merge sampleBase 64 =
      .ok schema) ∧
    ∀ level bases, level :: bases <:+ [samplePair Builtin.timeDomainProperty Builtin.nameProperty,
      samplePair Builtin.nameProperty Builtin.kindProperty] →
        level.Fits bases ∧ level.Untaken bases := by
  have hok : ((sampleUpper Builtin.timeDomainProperty Builtin.nameProperty).merge
      sampleBase 64).toOption.isSome = true := by decide +kernel
  have hmerge : ∃ schema, (sampleUpper Builtin.timeDomainProperty Builtin.nameProperty).merge
      sampleBase 64 = .ok schema := by
    revert hok
    cases (sampleUpper Builtin.timeDomainProperty Builtin.nameProperty).merge sampleBase 64 with
    | error e => exact fun hok => by cases hok
    | ok schema => exact fun _ => ⟨schema, rfl⟩
  have hchain : (sampleUpper Builtin.timeDomainProperty Builtin.nameProperty).chain sampleBase 64 =
      .ok [sampleUpper Builtin.timeDomainProperty Builtin.nameProperty, sampleLower] := rfl
  have hkeyed : ∀ c ∈ [sampleUpper Builtin.timeDomainProperty Builtin.nameProperty, sampleLower],
      c.definitions.Keyed := by
    simp only [List.forall_mem_cons]
    exact ⟨keyed_samplePair _ _, keyed_samplePair _ _, List.forall_mem_nil _⟩
  exact ⟨hmerge, (merge_succeeds_iff hchain hkeyed).1 hmerge⟩

private theorem inForce_samplePair (p q : Property) (n : UInt32) (bases : List (Container Attribute)) :
    inForce n ((samplePair p q).attributes :: bases) =
      (if n = 1 then [{ number := 1, property := some p }]
        else if n = 2 then [{ number := 2, property := some q }] else []) ++ inForce n bases := by
  have hcomponents : (samplePair p q).attributes.components =
      [{ number := 1, property := some p }, { number := 2, property := some q }] := rfl
  by_cases h1 : n = 1
  · subst h1
    simp [inForce, definitionsOf, removes, hcomponents, Component.number, Component.isErasing]
  · by_cases h2 : n = 2
    · subst h2
      simp [inForce, definitionsOf, removes, hcomponents, Component.number, Component.isErasing]
    · simp [inForce, definitionsOf, removes, hcomponents, Component.number, Component.isErasing, h1, h2,
        Ne.symm h1, Ne.symm h2]

private theorem fits_samplePair {p q : Property} (h : p.name ≠ q.name) {bases : List Definitions}
    (hvalues : ∀ n, (inForce n (bases.map (·.attributes))).findSome? (·.value) = none)
    (hnumbers : ∀ n, n ≠ 1 → n ≠ 2 → inForce n (bases.map (·.attributes)) = [])
    (hseries : ∀ n, inForce n (bases.map (·.series)) = []) : (samplePair p q).Fits bases := by
  have hnone : ∀ n, inForce n ((samplePair p q).series :: bases.map (·.series)) = [] := hseries
  have hname : ∀ n s, Attribute.nameOf (inForce n ((samplePair p q).attributes ::
      bases.map (·.attributes))) = some s → n = 1 ∧ s = p.name ∨ n = 2 ∧ s = q.name := by
    intro n s hs
    rw [inForce_samplePair] at hs
    by_cases h1 : n = 1
    · rw [if_pos h1] at hs
      exact .inl ⟨h1, (Option.some.inj hs).symm⟩
    · by_cases h2 : n = 2
      · rw [if_neg h1, if_pos h2] at hs
        exact .inr ⟨h2, (Option.some.inj hs).symm⟩
      · rw [if_neg h1, if_neg h2, hnumbers n h1 h2] at hs
        cases hs
  refine ⟨⟨fun n _ => ?_, fun m n s hm hn => ?_⟩, ⟨fun n hn => absurd rfl hn, fun m n s hm => ?_⟩⟩
  · have hvalue : (inForce n ((samplePair p q).attributes ::
        bases.map (·.attributes))).findSome? (·.value) = none := by
      rw [inForce_samplePair, List.findSome?_append, hvalues]
      split_ifs <;> rfl
    unfold Attribute.Fits
    rw [hvalue]
    generalize List.findSome? _ _ = property
    cases property <;> rfl
  · rcases hname m s hm with ⟨rfl, rfl⟩ | ⟨rfl, rfl⟩ <;> rcases hname n _ hn with ⟨rfl, hs⟩ | ⟨rfl, hs⟩
    · rfl
    · exact absurd hs h
    · exact absurd hs.symm h
    · rfl
  · rw [hnone] at hm
    cases hm

/-- Two attributes cannot exchange their names, although each level leaves names of their own: the
first takes the name that the second has not given up yet. -/
theorem merge_exchanged_names :
    (∀ level bases, level :: bases <:+ [samplePair Builtin.kindProperty Builtin.nameProperty,
      samplePair Builtin.nameProperty Builtin.kindProperty] → level.Fits bases) ∧
    (sampleUpper Builtin.kindProperty Builtin.nameProperty).chain sampleBase 64 =
      .ok [sampleUpper Builtin.kindProperty Builtin.nameProperty, sampleLower] ∧
    (sampleUpper Builtin.kindProperty Builtin.nameProperty).merge sampleBase 64 =
      .error (.duplicateName "attribute" "series.type" 2 1) := by
  have hne : Builtin.nameProperty.name ≠ Builtin.kindProperty.name := by decide
  refine ⟨fun level bases hsuffix => ?_, rfl, rfl⟩
  obtain heq | hsuffix := List.suffix_cons_iff.1 hsuffix
  · obtain ⟨rfl, rfl⟩ := List.cons.inj heq
    refine fits_samplePair hne.symm (fun n => ?_) (fun n h1 h2 => ?_) fun n => rfl
    · rw [List.map_cons, List.map_nil, inForce_samplePair]
      split_ifs <;> rfl
    · rw [List.map_cons, List.map_nil, inForce_samplePair, if_neg h1, if_neg h2]
      rfl
  · obtain heq | hsuffix := List.suffix_cons_iff.1 hsuffix
    · obtain ⟨rfl, rfl⟩ := List.cons.inj heq
      exact fits_samplePair hne (fun _ => rfl) (fun _ _ _ => rfl) fun _ => rfl
    · cases List.suffix_nil.1 hsuffix

end Blueprint

end ChronicleMeta
