import ChronicleMeta.Proofs.Arising

/-!
Completeness. Complete components have names, and names of their own, so that the check of a container
finds as many names as components; and the check of all definitions finds nothing missing exactly where
the search for the first that is incomplete finds none.
-/

namespace ChronicleMeta

open Component

namespace Container

variable {T : Type} [Component T] {c : Container T}

theorem exists_allComplete {l : List T}
    (heval : ∀ x ∈ l, ∃ complete, Component.isComplete x = .ok complete) :
    ∃ complete, allComplete l = .ok complete ∧
      (complete = true ↔ ∀ x ∈ l, Component.isComplete x = .ok true) := by
  induction l with
  | nil => exact ⟨true, rfl, by simp⟩
  | cons x l ih =>
    obtain ⟨⟨complete, hx⟩, hrest⟩ := List.forall_mem_cons.1 heval
    obtain ⟨rest, hl, hiff⟩ := ih hrest
    rw [allComplete, hx, ok_bind]
    cases complete with
    | false => exact ⟨false, rfl, by simp [hx]⟩
    | true => exact ⟨rest, hl, by simp [hx, hiff]⟩

/-- A container whose names are kept is checked without a fault, if complete components have names. -/
theorem exists_isComplete (hnamed : c.view.Named)
    (heval : ∀ x ∈ c.components, ∃ complete, Component.isComplete x = .ok complete)
    (hname : ∀ x ∈ c.components, Component.isComplete x = .ok true → (name? x).isSome) :
    ∃ complete, c.isComplete = .ok complete ∧
      (complete = true ↔ ∀ x ∈ c.components, Component.isComplete x = .ok true) := by
  obtain ⟨complete, hall, hiff⟩ := exists_allComplete heval
  refine ⟨complete, ?_, hiff⟩
  have hstep : (complete && decide (c.view.byName.size ≠ c.view.byNumber.size)) = false := by
    cases complete with
    | false => rfl
    | true =>
      have hcomplete := hiff.1 rfl
      have hsize := hnamed.size_eq fun x hx => hname x hx (hcomplete x hx)
      simp [hsize]
  rw [Container.isComplete, hall, ok_bind, hstep]
  rfl

theorem exists_firstIncomplete?
    (heval : ∀ x ∈ c.components, ∃ complete, Component.isComplete x = .ok complete) :
    ∃ first, c.firstIncomplete? = .ok first ∧
      (first = none ↔ ∀ x ∈ c.components, Component.isComplete x = .ok true) := by
  unfold firstIncomplete?
  generalize c.components = l at heval
  induction l with
  | nil => exact ⟨none, rfl, by simp⟩
  | cons x l ih =>
    obtain ⟨⟨complete, hx⟩, hrest⟩ := List.forall_mem_cons.1 heval
    obtain ⟨first, hl, hiff⟩ := ih hrest
    rw [firstIncomplete?.go, hx, ok_bind]
    cases complete with
    | false => exact ⟨some x, rfl, by simp [hx]⟩
    | true => exact ⟨first, hl, by simp [hx, hiff]⟩

end Container

theorem Attribute.name?_of_isComplete {a : Attribute} (h : a.isComplete = true) : (name? a).isSome := by
  change (a.property.map (·.name)).isSome
  cases hp : a.property with
  | none => simp [Attribute.isComplete, hp] at h
  | some p => rfl

theorem Attribute.isComplete_eq_ok {a : Attribute} :
    Component.isComplete a = .ok true ↔ a.isComplete = true := by
  change Except.ok a.isComplete = Except.ok true ↔ a.isComplete = true
  rw [Except.ok.injEq]

theorem Attribute.exists_isComplete {c : Container Attribute} (h : c.view.Named) :
    ∃ complete, c.isComplete = .ok complete ∧
      (complete = true ↔ ∀ a ∈ c.components, a.isComplete = true) := by
  obtain ⟨complete, heq, hiff⟩ := Container.exists_isComplete h (fun a _ => ⟨a.isComplete, rfl⟩)
    fun a _ ha => name?_of_isComplete (isComplete_eq_ok.1 ha)
  exact ⟨complete, heq, hiff.trans (forall₂_congr fun a _ => isComplete_eq_ok)⟩

namespace Series

/-- Nothing is missing from the series: it has its three reserved attributes, and every attribute has a
property that accepts its value. -/
structure Full (x : Series) : Prop where
  erasing_eq : x.erasing = false
  name? : x.name?.isSome
  valueKind? : x.valueKind?.isSome
  timeDomain? : x.timeDomain?.isSome
  attributes : ∀ a ∈ x.attributes.components, a.isComplete = true

theorem exists_isComplete {x : Series} (h : x.attributes.view.Named) :
    ∃ complete, x.isComplete = .ok complete ∧ (complete = true ↔ x.Full) := by
  obtain ⟨complete, hattributes, hiff⟩ := Attribute.exists_isComplete h
  unfold Series.isComplete
  split_ifs with hstructure
  · simp only [Bool.and_eq_true, Bool.not_eq_true'] at hstructure
    obtain ⟨⟨⟨herasing, hname⟩, hkind⟩, hdomain⟩ := hstructure
    refine ⟨complete, hattributes, hiff.trans ?_⟩
    exact ⟨fun hall => ⟨herasing, hname, hkind, hdomain, hall⟩, fun hfull => hfull.attributes⟩
  · refine ⟨false, rfl, iff_of_false (by simp) fun hfull => hstructure ?_⟩
    simp [hfull.erasing_eq, hfull.name?, hfull.valueKind?, hfull.timeDomain?]

theorem isComplete_eq_ok {x : Series} (h : x.attributes.view.Named) :
    Component.isComplete x = .ok true ↔ x.Full := by
  obtain ⟨complete, hx, hiff⟩ := exists_isComplete h
  change x.isComplete = .ok true ↔ x.Full
  rw [hx, ← hiff, Except.ok.injEq]

variable {c : Container Series}

theorem exists_isComplete_container (h : c.view.Named) (hx : ∀ x ∈ c.components, x.attributes.view.Named) :
    ∃ complete, c.isComplete = .ok complete ∧ (complete = true ↔ ∀ x ∈ c.components, x.Full) := by
  obtain ⟨complete, heq, hiff⟩ := Container.exists_isComplete h
    (fun x hmem => (exists_isComplete (hx x hmem)).imp fun _ => And.left)
    fun x hmem hcomplete => ((isComplete_eq_ok (hx x hmem)).1 hcomplete).name?
  exact ⟨complete, heq, hiff.trans (forall₂_congr fun x hmem => isComplete_eq_ok (hx x hmem))⟩

end Series

namespace Definitions

variable {d : Definitions}

/-- Nothing is missing from the definitions: there is a series, and nothing is missing from any attribute or
series. -/
structure Full (d : Definitions) : Prop where
  series_ne_nil : d.series.components ≠ []
  attributes : ∀ a ∈ d.attributes.components, a.isComplete = true
  series : ∀ x ∈ d.series.components, x.Full

theorem Arises.series_named (h : d.Arises) : ∀ x ∈ d.series.components, x.attributes.view.Named :=
  fun x hx => (h.series.forall_mem Series.passes_arises x hx).named.view

theorem isEmpty_iff : d.series.isEmpty = true ↔ d.series.components = [] := by
  rw [Container.isEmpty, SortedMap.isEmpty, List.isEmpty_iff, Container.components, Index.components,
    SortedMap.values, List.map_eq_nil_iff]

theorem exists_isComplete (h : d.Arises) :
    ∃ complete, d.isComplete = .ok complete ∧ (complete = true ↔ d.Full) := by
  obtain ⟨attributes, hattributes, hattributes_iff⟩ := Attribute.exists_isComplete h.attributes.named.view
  obtain ⟨series, hseries, hseries_iff⟩ :=
    Series.exists_isComplete_container h.series.named.view h.series_named
  unfold Definitions.isComplete
  split_ifs with hempty
  · exact ⟨false, rfl, iff_of_false (by simp) fun hfull => hfull.series_ne_nil (isEmpty_iff.1 hempty)⟩
  · rw [hattributes, ok_bind]
    cases attributes with
    | false =>
      have hnot : ¬d.Full := fun hfull => by simpa using hattributes_iff.2 hfull.attributes
      exact ⟨false, rfl, iff_of_false (by simp) hnot⟩
    | true =>
      refine ⟨series, hseries, hseries_iff.trans ?_⟩
      exact ⟨fun hall => ⟨fun hnil => hempty (isEmpty_iff.2 hnil), hattributes_iff.1 rfl, hall⟩,
        fun hfull => hfull.series⟩

theorem exists_incompleteness? (h : d.Arises) :
    ∃ missing, d.incompleteness? = .ok missing ∧ (missing = none ↔ d.Full) := by
  obtain ⟨a, ha, ha_iff⟩ := Container.exists_firstIncomplete? (c := d.attributes)
    fun a _ => ⟨a.isComplete, rfl⟩
  obtain ⟨x, hx, hx_iff⟩ := Container.exists_firstIncomplete? (c := d.series) fun x hmem =>
    (Series.exists_isComplete (h.series_named x hmem)).imp fun _ => And.left
  have ha_iff := ha_iff.trans (forall₂_congr fun a _ => Attribute.isComplete_eq_ok)
  have hx_iff := hx_iff.trans (forall₂_congr fun x hmem => Series.isComplete_eq_ok (h.series_named x hmem))
  unfold incompleteness?
  split_ifs with hempty
  · exact ⟨some .noSeries, rfl, iff_of_false (by simp) fun hfull =>
      hfull.series_ne_nil (isEmpty_iff.1 hempty)⟩
  · rw [ha, ok_bind]
    cases a with
    | some a =>
      have hnot : ¬d.Full := fun hfull => by simpa using ha_iff.2 hfull.attributes
      exact ⟨_, rfl, iff_of_false (by simp) hnot⟩
    | none =>
      dsimp only
      rw [hx, ok_bind]
      cases x with
      | some x =>
        have hnot : ¬d.Full := fun hfull => by simpa using hx_iff.2 hfull.series
        exact ⟨_, rfl, iff_of_false (by simp) hnot⟩
      | none =>
        refine ⟨none, rfl, iff_of_true rfl ⟨fun hnil => hempty (isEmpty_iff.2 hnil), ?_, ?_⟩⟩
        · exact ha_iff.1 rfl
        · exact hx_iff.1 rfl

theorem ensureComplete_eq_ok_iff {s : Schema} (h : s.definitions.Arises) :
    s.ensureComplete = .ok () ↔ s.definitions.Full := by
  obtain ⟨missing, hmissing, hiff⟩ := exists_incompleteness? h
  rw [Schema.ensureComplete, hmissing, lift_ok_fault, ok_bind, ← hiff]
  cases missing with
  | none => exact iff_of_true rfl rfl
  | some missing => exact iff_of_false nofun nofun

end Definitions

namespace Blueprint

variable {source : Source} {config : ResolutionConfig} {b : Blueprint} {s : Schema}

theorem resolve_eq_ok_iff (hcomplete : config.requireComplete = true) :
    b.resolve source config = .ok s ↔
      b.merge source config.maxDepth = .ok s ∧ s.definitions.Full := by
  constructor
  · intro h
    have hmerge := merge_of_resolve h
    obtain ⟨s', hs', h⟩ := bind_eq_ok_iff.1 h
    rw [if_pos hcomplete] at h
    obtain ⟨_, hensure, h⟩ := bind_eq_ok_iff.1 h
    obtain rfl := pure_eq_ok_iff.1 h
    exact ⟨hmerge, (Definitions.ensureComplete_eq_ok_iff (arises_of_merge hmerge)).1 hensure⟩
  · rintro ⟨hmerge, hfull⟩
    have hensure := (Definitions.ensureComplete_eq_ok_iff (arises_of_merge hmerge)).2 hfull
    rw [resolve, hmerge, lift_ok, ok_bind, if_pos hcomplete, hensure]
    rfl

end Blueprint

/-- The check of a container finds its names in step with its components, for attributes, for series and
for the attributes of each series, however the containers have come about. Where a merge succeeds, all
three ways to ask for completeness answer alike; and a schema that has to be complete is resolved exactly
if it is merged and there is a series, and nothing is missing from any attribute, series or attribute of a
series. -/
theorem completeness_checks_agree :
    (∀ c : Container Attribute, c.Arises (fun _ => True) → ∃ complete, c.isComplete = .ok complete) ∧
    (∀ c : Container Series, c.Arises Series.Arises → (∃ complete, c.isComplete = .ok complete) ∧
      ∀ x ∈ c.components, x.Arises) ∧
    (∀ x : Series, x.Arises → ∃ complete, x.attributes.isComplete = .ok complete) ∧
    (∀ b : Blueprint, b.Arises → b.definitions.Arises) ∧
    (∀ source maxDepth b s, Blueprint.merge source maxDepth b = .ok s → s.definitions.Arises ∧
      ∃ complete missing, s.definitions.isComplete = .ok complete ∧
        s.definitions.incompleteness? = .ok missing ∧
        (complete = true ↔ missing = none) ∧ (complete = true ↔ s.ensureComplete = .ok ())) ∧
    ∀ source config b s, config.requireComplete = true →
      (Blueprint.resolve source config b = .ok s ↔
        b.merge source config.maxDepth = .ok s ∧ s.definitions.Full) := by
  refine ⟨fun c hc => ?_, fun c hc => ⟨?_, hc.forall_mem Series.passes_arises⟩, fun x hx => ?_,
    fun b hb => hb.definitions, fun source maxDepth b s hs => ?_, fun source config b s hcomplete => ?_⟩
  · exact (Attribute.exists_isComplete hc.named.view).imp fun _ => And.left
  · have hnested : ∀ x ∈ c.components, x.attributes.view.Named := fun x hx =>
      (hc.forall_mem Series.passes_arises x hx).named.view
    exact (Series.exists_isComplete_container hc.named.view hnested).imp fun _ => And.left
  · exact (Attribute.exists_isComplete hx.named.view).imp fun _ => And.left
  · have harises := Blueprint.arises_of_merge hs
    obtain ⟨complete, hcomplete, hfull⟩ := Definitions.exists_isComplete harises
    obtain ⟨missing, hmissing, hnone⟩ := Definitions.exists_incompleteness? harises
    have hensure := Definitions.ensureComplete_eq_ok_iff harises
    exact ⟨harises, complete, missing, hcomplete, hmissing, hfull.trans hnone.symm, hfull.trans hensure.symm⟩
  · exact Blueprint.resolve_eq_ok_iff hcomplete

/-- A series with only its reserved attributes. -/
def reservedSeries : Series :=
  ([.setStructural Builtin.seriesName "s", .setStructural Builtin.seriesKind "float",
    .setStructural Builtin.seriesTimeDomain "week"] : List Series.Request).foldl Series.serve { number := 1 }

def singleSeries : Blueprint :=
  Blueprint.close
    (Blueprint.serve { surrogate := .pending ⟨1⟩ .schema, name := "one" } (.addSeries reservedSeries))

theorem completeness_checks_agree_sample :
    (∃ complete, singleSeries.definitions.attributes.isComplete = .ok complete) ∧
    (∃ complete, singleSeries.definitions.series.isComplete = .ok complete) ∧
    (∀ x ∈ singleSeries.definitions.series.components,
      ∃ complete, x.attributes.isComplete = .ok complete) ∧
    ∃ s, singleSeries.merge (fun _ => .ok none) 64 = .ok s ∧ s.definitions.isComplete = .ok true ∧
      s.ensureComplete = .ok () ∧ s.definitions.Full := by
  obtain ⟨hattributes, hseries, hnested, hblueprint, hmerged, hresolved⟩ := completeness_checks_agree
  have hreserved : reservedSeries.Arises := (Series.Arises.new 1).perform _
  have harises : singleSeries.Arises :=
    .closed (.served (.new _ _) (r := .addSeries reservedSeries) hreserved)
  have hdefinitions := hblueprint _ harises
  have hok : (singleSeries.resolve (fun _ => .ok none) {}).toOption.isSome = true := by decide +kernel
  refine ⟨hattributes _ hdefinitions.attributes, (hseries _ hdefinitions.series).1,
    fun x hx => hnested x ((hseries _ hdefinitions.series).2 x hx), ?_⟩
  cases hs : singleSeries.resolve (fun _ => .ok none) {} with
  | error e => simp [hs, Except.toOption] at hok
  | ok s =>
    obtain ⟨hmerge, hfull⟩ := (hresolved _ {} _ _ rfl).1 hs
    obtain ⟨-, complete, missing, hcomplete, -, -, hensure⟩ := hmerged _ _ _ _ hmerge
    obtain ⟨complete', hcomplete', hfull_iff⟩ := Definitions.exists_isComplete (hmerged _ _ _ _ hmerge).1
    obtain rfl : complete = complete' := Except.ok.inj (hcomplete.symm.trans hcomplete')
    have htrue := hfull_iff.2 hfull
    exact ⟨s, hmerge, htrue ▸ hcomplete, hensure.1 htrue, hfull⟩

end ChronicleMeta
