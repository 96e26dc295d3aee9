import ChronicleMeta.Proofs.Acceptance
import ChronicleMeta.Proofs.Arising
import ChronicleMeta.Proofs.Chain
import ChronicleMeta.Proofs.Container.Relaying

/-!
Resolution step by step. What a chain of bases comes to can take the place of the chain: a schema is
merged over its flattened bases as over the bases themselves, into the same definitions or with the
same error, and a level that is laid a second time in a row changes nothing unless it defines a number
twice.
-/

namespace ChronicleMeta

open Component Container

namespace Attribute

/-- Both define the same under the same number. Only one of them may be open for changes. -/
structure Same (a b : Attribute) : Prop where
  number_eq : a.number = b.number
  property_eq : a.property = b.property
  value_eq : a.value = b.value
  erasing_eq : a.erasing = b.erasing

/-- What merging leaves: an attribute open for changes, no removal, with a value that fits. -/
structure Merged (a : Attribute) : Prop where
  erasing_eq : a.erasing = false
  editable_eq : a.editable = true
  fits : checkPair a.property a.value = .ok ()

variable {a b d : Attribute} {c : Container Attribute} {defs : UInt32 → List Attribute}

theorem same_refl (a : Attribute) : Same a a := ⟨rfl, rfl, rfl, rfl⟩

theorem simulates : Simulates (fun n => { number := n }) Attribute.merge Eq Same where
  empty _ := rfl
  name?_eq _ _ h := congrArg Component.name? h
  number_eq _ _ h := h.number_eq
  isErasing_eq _ _ h := h.erasing_eq
  merge x y d e hxy hde := by
    have hmerge : x.merge d = y.merge e := by
      unfold Attribute.merge
      rw [hxy, hde.property_eq, hde.value_eq]
    rw [hmerge]
    cases y.merge e with
    | error e => exact .error e
    | ok z => exact .ok rfl

/-- What a definition has set, it sets again to the same. -/
theorem merge_merge (h : a.merge d = .ok b) : b.merge d = .ok b := by
  obtain ⟨heditable, hpair, rfl⟩ := merge_eq_ok_iff.1 h
  rw [merge_eq_ok_iff]
  simp only [← Option.or_assoc, Option.or_self]
  refine ⟨heditable, hpair, ?_⟩
  cases a.erasing <;> cases (d.property.or a.property).isNone <;>
    cases (d.value.or a.value).isNone <;> rfl

theorem mergeRule_merged :
    MergeRule (fun n => { number := n }) Attribute.merge fun _ => Merged where
  number_empty := mergeRule.number_empty
  number_merge := mergeRule.number_merge
  made_empty _ := ⟨rfl, rfl, rfl⟩
  made_merge ds a d b ha h := by
    obtain ⟨-, hpair, rfl⟩ := merge_eq_ok_iff.1 h
    exact ⟨by simp [ha.erasing_eq], ha.editable_eq, hpair⟩

theorem relayable (h : Holds (fun _ => Merged) defs c) :
    Relayable (fun n => { number := n }) Attribute.merge (fun _ => True) Eq c := by
  have hmerged : ∀ n a, c.draft.byNumber.get? n = some a → a.Merged := by
    intro n a ha
    have hslot := h.slot n
    rw [ha] at hslot
    exact hslot.2
  refine ⟨h.committed_eq, h.consistent, fun n a ha => (hmerged n a ha).erasing_eq,
    fun _ _ _ => trivial, fun n a ha => ?_⟩
  have hnumber : a.number = n := h.consistent.number_eq n a ha
  obtain ⟨herasing, heditable, hfits⟩ := hmerged n a ha
  have hpair : checkPair (a.property.or none) (a.value.or none) = .ok () := by
    rw [Option.or_none, Option.or_none]
    exact hfits
  refine ⟨_, merge_eq_ok_iff.2 ⟨rfl, hpair, rfl⟩, ?_⟩
  rw [← hnumber]
  cases a
  simp_all [Component.freeze, Component.setEditable]

end Attribute

namespace Series

/-- Both define the same under the same number. Only one of them may be open for changes. -/
structure Same (x y : Series) : Prop where
  number_eq : x.number = y.number
  description_eq : x.description = y.description
  erasing_eq : x.erasing = y.erasing
  attributes : List.Forall₂ Attribute.Same x.attributes.components y.attributes.components

/-- The same series, with the edit buffer of the attributes open or not yet. -/
structure Alike (x y : Series) : Prop where
  number_eq : x.number = y.number
  description_eq : x.description = y.description
  erasing_eq : x.erasing = y.erasing
  editable_eq : x.editable = y.editable
  attributes : x.attributes.Alike Eq y.attributes

/-- What merging leaves: a series open for changes, no removal, with attributes that are merged. -/
structure Merged (ds : List Series) (x : Series) : Prop where
  erasing_eq : x.erasing = false
  editable_eq : x.editable = true
  attributes : Holds (fun _ => Attribute.Merged) (inForce · (ds.map (·.attributes))) x.attributes

variable {x y d t : Series} {c : Container Series} {defs : UInt32 → List Series}

theorem same_refl (x : Series) : Same x x :=
  ⟨rfl, rfl, rfl, List.forall₂_same.2 fun a _ => Attribute.same_refl a⟩

theorem Alike.name?_eq (h : Alike x y) : x.name? = y.name? := by
  have hslot := h.attributes.draft.slots Builtin.seriesName
  unfold name? structural?
  rw [get?_eq_draft h.attributes.committed_left, get?_eq_draft h.attributes.committed_right]
  generalize x.attributes.draft.byNumber.get? Builtin.seriesName = a at hslot ⊢
  generalize y.attributes.draft.byNumber.get? Builtin.seriesName = b at hslot ⊢
  cases hslot with
  | none => rfl
  | some hab => rw [hab]

theorem Alike.freeze_eq (h : Alike x y) : (Component.freeze x : Series) = Component.freeze y := by
  have hattributes : x.attributes.consolidate = y.attributes.consolidate :=
    h.attributes.consolidate_eq fun a b hab => by rw [hab]
  obtain ⟨hnumber, hdescription, herasing, -, -⟩ := h
  cases x
  cases y
  simp_all [Component.freeze]

theorem merge_of_mergeLevel {c : Container Attribute} (heditable : x.ensureEditable = .ok ())
    (h : mergeLevel (fun n => { number := n }) Attribute.merge x.attributes d.attributes = .ok c) :
    x.merge d = .ok { x with
      attributes := c, description := d.description.or x.description, erasing := false } :=
  bind_eq_ok_iff.2 ⟨(), heditable, bind_eq_ok_iff.2 ⟨c, h, rfl⟩⟩

theorem simulates : Simulates (fun n => { number := n }) Series.merge Alike Same where
  empty _ := ⟨rfl, rfl, rfl, rfl, Container.alike_empty⟩
  name?_eq _ _ h := h.name?_eq
  number_eq _ _ h := h.number_eq
  isErasing_eq _ _ h := h.erasing_eq
  merge x y d e hxy hde := by
    have heditable : x.ensureEditable = y.ensureEditable := by
      unfold ensureEditable
      rw [hxy.editable_eq, hxy.number_eq]
    have hattributes := hxy.attributes.mergeLevel Attribute.simulates hde.attributes
    unfold Series.merge
    rw [heditable]
    cases y.ensureEditable with
    | error e => exact .error e
    | ok u =>
      refine hattributes.bind fun c c' hc => .ok ?_
      refine ⟨hxy.number_eq, ?_, rfl, hxy.editable_eq, hc⟩
      dsimp only
      rw [hde.description_eq, hxy.description_eq]

/-- What a definition has set, it sets again to the same. -/
theorem merge_merge (hdistinct : d.attributes.Distinct) (h : x.merge d = .ok t) : t.merge d = .ok t := by
  obtain ⟨_, heditable, -⟩ := bind_eq_ok_iff.1 h
  obtain ⟨c, hc, ht⟩ := merge_eq_ok h
  have hagain : mergeLevel (fun n => { number := n }) Attribute.merge c d.attributes = .ok c :=
    mergeLevel_mergeLevel Attribute.mergeRule.number_empty hdistinct
      (fun a _ _ _ => Attribute.merge_merge) hc
  have hattributes : t.attributes = c := by rw [ht]
  have hdescription : d.description.or t.description = t.description := by
    rw [ht]
    cases d.description <;> rfl
  have herasing : t.erasing = false := by rw [ht]
  have heditablet : t.ensureEditable = .ok () := by
    rw [ht]
    exact heditable
  rw [← hattributes] at hagain
  rw [merge_of_mergeLevel heditablet hagain, hdescription, ← herasing]

theorem mergeRule_merged : MergeRule (fun n => { number := n }) Series.merge Merged where
  number_empty := mergeRule.number_empty
  number_merge := mergeRule.number_merge
  made_empty _ := ⟨rfl, rfl, holds_empty⟩
  made_merge ds s d t hs h := by
    obtain ⟨c, hc, rfl⟩ := merge_eq_ok h
    exact ⟨rfl, hs.editable_eq, hs.attributes.mergeLevel Attribute.mergeRule_merged hc⟩

theorem relayable (h : Holds Merged defs c) :
    Relayable (fun n => { number := n }) Series.merge (·.attributes.Keyed) Alike c := by
  have hmerged : ∀ n x, c.draft.byNumber.get? n = some x → Merged (defs n) x := by
    intro n x hx
    have hslot := h.slot n
    rw [hx] at hslot
    exact hslot.2
  refine ⟨h.committed_eq, h.consistent, fun n x hx => (hmerged n x hx).erasing_eq,
    fun n x hx => (Attribute.relayable (hmerged n x hx).attributes).keyed, fun n x hx => ?_⟩
  obtain ⟨herasing, heditable, hattributes⟩ := hmerged n x hx
  have hnumber : x.number = n := h.consistent.number_eq n x hx
  obtain ⟨c', hc', halike⟩ :=
    (Attribute.relayable hattributes).exists_mergeLevel Attribute.judgedRule fun _ _ hab => by rw [hab]
  refine ⟨_, merge_of_mergeLevel rfl hc', hnumber.symm, ?_, herasing.symm, heditable.symm, halike⟩
  exact Option.or_none

end Series

namespace Definitions

/-- Both define the same attributes and series. Only one of them may be open for changes. -/
structure Same (d e : Definitions) : Prop where
  attributes : List.Forall₂ Attribute.Same d.attributes.components e.attributes.components
  series : List.Forall₂ Series.Same d.series.components e.series.components

/-- Definitions that a level is laid over alike. -/
structure Alike (d e : Definitions) : Prop where
  attributes : d.attributes.Alike Eq e.attributes
  series : d.series.Alike Series.Alike e.series

/-- No number is defined twice: among the attributes, the series, or the attributes of a series. -/
structure Distinct (d : Definitions) : Prop where
  attributes : d.attributes.Distinct
  series : d.series.Distinct
  nested : ∀ x ∈ d.series.components, x.attributes.Distinct

/-- What laying levels over one another leaves. -/
structure Merged (levels : List Definitions) (d : Definitions) : Prop where
  attributes : Holds (fun _ => Attribute.Merged) (inForce · (levels.map (·.attributes))) d.attributes
  series : Holds Series.Merged (inForce · (levels.map (·.series))) d.series

variable {d d' e level level' : Definitions} {levels : List Definitions}

theorem same_refl (d : Definitions) : Same d d where
  attributes := List.forall₂_same.2 fun a _ => Attribute.same_refl a
  series := List.forall₂_same.2 fun x _ => Series.same_refl x

theorem Keyed.distinct (h : d.Keyed) : d.Distinct where
  attributes := h.attributes.distinct
  series := h.series.distinct
  nested x hx := (h.nested x hx).distinct

theorem alike_empty : Alike {} {} := ⟨Container.alike_empty, Container.alike_empty⟩

theorem Alike.merge (h : Alike d e) (hlevel : Same level level') :
    Together Alike (d.merge level) (e.merge level') := by
  have hattributes := h.attributes.mergeLevel Attribute.simulates hlevel.attributes
  have hseries := h.series.mergeLevel Series.simulates hlevel.series
  unfold Definitions.merge
  exact hattributes.bind fun _ _ ha => hseries.bind fun _ _ hs => .ok ⟨ha, hs⟩

theorem Alike.consolidate_eq (h : Alike d e) : d.consolidate = e.consolidate := by
  have hattributes := h.attributes.consolidate_eq fun a b hab => by rw [hab]
  have hseries := h.series.consolidate_eq fun _ _ hxy => hxy.freeze_eq
  rw [consolidate, consolidate, hattributes, hseries]

theorem Merged.merge (h : Merged levels d) (hm : d.merge level = .ok d') :
    Merged (level :: levels) d' := by
  obtain ⟨attributes, ha, hm⟩ := bind_eq_ok_iff.1 hm
  obtain ⟨series, hs, hm⟩ := bind_eq_ok_iff.1 hm
  obtain rfl := pure_eq_ok_iff.1 hm
  exact ⟨h.attributes.mergeLevel Attribute.mergeRule_merged ha,
    h.series.mergeLevel Series.mergeRule_merged hs⟩

/-- Flattened definitions are laid over nothing as they were before they were consolidated. -/
theorem Merged.exists_merge (h : Merged levels d) :
    ∃ d', ({} : Definitions).merge d.consolidate = .ok d' ∧ Alike d' d := by
  obtain ⟨c, hc, hattributes⟩ := (Attribute.relayable h.attributes).exists_mergeLevel
    Attribute.judgedRule fun _ _ hab => by rw [hab]
  obtain ⟨e, he, hseries⟩ := (Series.relayable h.series).exists_mergeLevel Series.judgedRule
    fun _ _ hxy => hxy.name?_eq
  exact ⟨⟨c, e⟩, bind_eq_ok_iff.2 ⟨c, hc, bind_eq_ok_iff.2 ⟨e, he, rfl⟩⟩, hattributes, hseries⟩

/-- A level that is laid a second time changes nothing. -/
theorem merge_merge (hdistinct : level.Distinct) (h : d.merge level = .ok d') :
    d'.merge level = .ok d' := by
  obtain ⟨attributes, ha, h⟩ := bind_eq_ok_iff.1 h
  obtain ⟨series, hs, h⟩ := bind_eq_ok_iff.1 h
  obtain rfl := pure_eq_ok_iff.1 h
  have hattributes : mergeLevel (fun n => { number := n }) Attribute.merge attributes
      level.attributes = .ok attributes :=
    mergeLevel_mergeLevel Attribute.mergeRule.number_empty hdistinct.attributes
      (fun a _ _ _ => Attribute.merge_merge) ha
  have hseries : mergeLevel (fun n => { number := n }) Series.merge series level.series = .ok series :=
    mergeLevel_mergeLevel Series.mergeRule.number_empty hdistinct.series
      (fun x hx _ _ => Series.merge_merge (hdistinct.nested x hx)) hs
  exact bind_eq_ok_iff.2 ⟨attributes, hattributes, bind_eq_ok_iff.2 ⟨series, hseries, rfl⟩⟩

end Definitions

namespace Blueprint

/-- Levels with the same definitions are flattened alike. -/
theorem flatten_congr {levels levels' : List Definitions}
    (h : List.Forall₂ Definitions.Same levels levels') : flatten levels = flatten levels' := by
  have hlevels : List.Forall₂ Definitions.Same levels.reverse levels'.reverse := List.rel_reverse h
  have hmerge : Together Definitions.Alike (levels.reverse.foldlM Definitions.merge {})
      (levels'.reverse.foldlM Definitions.merge {}) :=
    Together.foldlM hlevels (fun _ _ _ _ hde hlevel => hde.merge hlevel) Definitions.alike_empty
  exact (hmerge.map fun _ _ hde => hde.consolidate_eq).eq

/-- Levels over the flattened bases are flattened as they are over the bases themselves. -/
theorem flatten_append {derived bases : List Definitions} {flat : Definitions}
    (h : flatten bases = .ok flat) : flatten (derived ++ [flat]) = flatten (derived ++ bases) := by
  obtain ⟨laid, hlaid, rfl⟩ := map_eq_ok_iff.1 h
  have hmerged : Definitions.Merged bases laid := by
    rw [List.foldlM_reverse] at hlaid
    exact invariant_of_foldrM ⟨holds_empty, holds_empty⟩ (fun _ _ _ _ h => h.merge) hlaid
  obtain ⟨relaid, hrelaid, halike⟩ := hmerged.exists_merge
  have hderived : List.Forall₂ Definitions.Same derived.reverse derived.reverse :=
    List.forall₂_same.2 fun d _ => Definitions.same_refl d
  have hmerge : Together Definitions.Alike (derived.reverse.foldlM Definitions.merge relaid)
      (derived.reverse.foldlM Definitions.merge laid) :=
    Together.foldlM hderived (fun _ _ _ _ hde hlevel => hde.merge hlevel) halike
  unfold flatten
  rw [List.reverse_append, List.reverse_append, List.foldlM_append, List.foldlM_append, hlaid,
    List.reverse_singleton, List.foldlM_cons, hrelaid]
  exact (hmerge.map fun _ _ hde => hde.consolidate_eq).eq

/-- Two levels of the same definitions in a row are flattened as one. -/
theorem flatten_append_cons {derived bases : List Definitions} {level : Definitions}
    (hdistinct : level.Distinct) :
    flatten (derived ++ level :: level :: bases) = flatten (derived ++ level :: bases) := by
  unfold flatten
  simp only [List.reverse_append, List.reverse_cons, List.foldlM_append, List.foldlM_cons,
    List.foldlM_nil, bind_pure, bind_assoc]
  congr 1
  cases List.foldlM Definitions.merge {} bases.reverse with
  | error e => rfl
  | ok below =>
    simp only [ok_bind]
    cases hm : below.merge level with
    | error e => rfl
    | ok d => rw [ok_bind, ok_bind, Definitions.merge_merge hdistinct hm, ok_bind]

theorem chain_of_root {source source' : Source} {maxDepth : Nat} {b root : Blueprint} {name : String}
    {chain : List Blueprint} (hchain : b.chain source maxDepth = .ok chain)
    (hbase : b.base = some name) (hsource' : source' name = .ok (some root))
    (hroot : root.base = none) : b.chain source' maxDepth = .ok [b, root] := by
  unfold Blueprint.chain at hchain ⊢
  rw [hbase] at hchain ⊢
  obtain ⟨hnone, -⟩ | ⟨name', base, room, hname, hroom, hvisited, -, -⟩ := walk_eq_ok_iff.1 hchain
  · cases hnone
  · obtain rfl := Option.some.inj hname
    refine walk_eq_ok_iff.2 (.inr ⟨name, root, room, rfl, hroom, hvisited, hsource', ?_⟩)
    exact walk_eq_ok_iff.2 (.inl ⟨hroot, rfl⟩)

/-- Resolution is compositional. A schema whose chain can be followed and whose base can be merged is
merged into the same definitions, or with the same error, where its base is replaced by a schema
without base that defines what the base is merged into. And to lay a level that defines no number twice
two times in a row is to lay it once, over whatever definitions. -/
theorem merge_composes {source source' : Source} {maxDepth : Nat} {b base root : Blueprint}
    {name : String} {chain : List Blueprint} {schema : Schema}
    (hbase : b.base = some name) (hsource : source name = .ok (some base))
    (hchain : b.chain source maxDepth = .ok chain) (hschema : base.merge source maxDepth = .ok schema)
    (hsource' : source' name = .ok (some root)) (hroot : root.base = none)
    (hsame : root.definitions.Same schema.definitions) :
    (b.merge source' maxDepth).map (·.definitions) = (b.merge source maxDepth).map (·.definitions) ∧
      ∀ level : Definitions, level.Distinct →
        (∀ d : Definitions, d.merge level >>= (·.merge level) = d.merge level) ∧
        ∀ derived bases,
          flatten (derived ++ level :: level :: bases) = flatten (derived ++ level :: bases) := by
  refine ⟨?_, fun level hdistinct => ⟨fun d => ?_, fun _ _ => flatten_append_cons hdistinct⟩⟩
  · obtain ⟨bases, flat, hbases, hflat, rfl⟩ := merge_eq_ok hschema
    have hchain' : b.chain source' maxDepth = .ok [b, root] :=
      chain_of_root hchain hbase hsource' hroot
    obtain rfl : chain = b :: bases := chain_eq_cons hchain hbase hsource hbases
    have hlevels : flatten [b.definitions, root.definitions] =
        flatten (b.definitions :: bases.map (·.definitions)) := by
      have hroot : flatten [b.definitions, root.definitions] = flatten [b.definitions, flat] :=
        flatten_congr (.cons (Definitions.same_refl _) (.cons hsame .nil))
      have hbases : flatten ([b.definitions] ++ [flat]) =
          flatten ([b.definitions] ++ bases.map (·.definitions)) := flatten_append hflat
      exact hroot.trans hbases
    unfold Blueprint.merge
    rw [hchain, hchain', ok_bind, ok_bind]
    simp only [List.map_cons, List.map_nil, hlevels]
    cases flatten (b.definitions :: bases.map (·.definitions)) <;> rfl
  · cases hm : d.merge level with
    | error e => rfl
    | ok d' => exact Definitions.merge_merge hdistinct hm

/-- A schema without base that defines what the middle one of the sample is merged into. -/
def sampleFlat (schema : Schema) : Blueprint where
  surrogate := .committed ⟨1⟩ .schema 4
  name := "middle"
  definitions := schema.definitions

def sampleFlatSource (schema : Schema) : Source := fun _ => .ok (some (sampleFlat schema))

theorem merge_composes_sample :
    ∃ schema, sampleMiddle.merge sampleSource 64 = .ok schema ∧
      (sampleDerived.merge (sampleFlatSource schema) 64).map (·.definitions) =
        (sampleDerived.merge sampleSource 64).map (·.definitions) ∧
      (samplePair Builtin.nameProperty Builtin.kindProperty).Distinct ∧ ∀ d : Definitions,
        d.merge (samplePair Builtin.nameProperty Builtin.kindProperty) >>=
            (·.merge (samplePair Builtin.nameProperty Builtin.kindProperty)) =
          d.merge (samplePair Builtin.nameProperty Builtin.kindProperty) := by
  have hok : (sampleMiddle.merge sampleSource 64).toOption.isSome = true := by decide +kernel
  cases hm : sampleMiddle.merge sampleSource 64 with
  | error e => simp [hm, Except.toOption] at hok
  | ok schema =>
    have hchain : sampleDerived.chain sampleSource 64 =
        .ok [sampleDerived, sampleMiddle, sampleRoot] := rfl
    have hsource' : sampleFlatSource schema "middle" = .ok (some (sampleFlat schema)) := rfl
    have hdistinct := (keyed_samplePair Builtin.nameProperty Builtin.kindProperty).distinct
    obtain ⟨hmerge, htwice⟩ :=
      merge_composes rfl rfl hchain hm hsource' rfl (Definitions.same_refl schema.definitions)
    exact ⟨schema, rfl, hmerge, hdistinct, (htwice _ hdistinct).1⟩

/-- A schema whose second attribute has been replaced by another definition of the first. -/
def sampleRenumbered : Blueprint :=
  let domain : Attribute := { number := 1, property := some Builtin.timeDomainProperty }
  let kind : Attribute :=
    { number := 1, property := some Builtin.kindProperty, value := some (.text "float") }
  let new : Blueprint := { surrogate := .pending ⟨1⟩ .schema, name := "renumbered" }
  Blueprint.serve
    (Blueprint.serve (Blueprint.serve new (.addAttribute domain)) (.addAttribute { kind with number := 2 }))
    (.editAttribute 2 fun _ => .ok ((), kind))

/-- A level that defines a number twice can be laid once, but not a second time: its first definition
does not fit the value that the second one has set. -/
theorem merge_twice_of_renumbered :
    sampleRenumbered.Arises ∧
      ∃ d, ({} : Definitions).merge sampleRenumbered.definitions = .ok d ∧
        d.merge sampleRenumbered.definitions =
          .error (.incompatibleValue "series.time_domain" "time_domain" "float") := by
  have harises : sampleRenumbered.Arises := .served (r := .editAttribute 2 _)
    (.served (r := .addAttribute _) (.served (r := .addAttribute _) (.new _ _) trivial) trivial) trivial
  exact ⟨harises, _, rfl, rfl⟩

end Blueprint

end ChronicleMeta
