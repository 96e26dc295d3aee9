import ChronicleMeta.Proofs.Blueprint.EditMode
import ChronicleMeta.Proofs.Chain

/-!
The types of complete series. The name, the kind of values and the time domain of a series are of the
types of the built-in properties as long as its reserved attributes have these properties. A custom
attribute cannot take a reserved number, but an edit can put any property on a reserved attribute.
-/

namespace ChronicleMeta

open Component Container

theorem Builtin.lt_firstCustom {n : UInt32} {p : Property} (h : ofAttribute? n = some p) :
    n < firstCustom := by
  unfold ofAttribute? at h
  split_ifs at h with hname hkind hdomain
  · rw [hname]; decide
  · rw [hkind]; decide
  · rw [hdomain]; decide

namespace Attribute

/-- A reserved attribute that has a property has the built-in one of its number. -/
def Structural (a : Attribute) : Prop :=
  ∀ p q, Builtin.ofAttribute? a.number = some p → a.property = some q → q = p

variable {a b : Attribute}

theorem structural_of_custom (h : Builtin.firstCustom ≤ a.number) : a.Structural := by
  intro p q hp _
  exact absurd (Builtin.lt_firstCustom hp) (UInt32.not_lt.2 h)

theorem steady_structural : Steady Structural where
  removal n p q _ hq := by cases hq
  definition n p v a hp ha := by
    obtain ⟨-, rfl⟩ := ofProperty_eq_ok_iff.1 ha
    intro p' q hp' hq
    have hpp : p = p' := Option.some.inj (hp.symm.trans hp')
    have hpq : p = q := Option.some.inj hq
    exact hpq.symm.trans hpp
  editable a editable h := h
  value a v b h hb := by
    obtain ⟨-, -, rfl⟩ := setValue_eq_ok_iff.1 hb
    exact h

end Attribute

namespace Series

/-- Whether an attribute that the request edits is left without another property than the built-in
one, if its number is reserved. -/
def Request.KeepsTypes : Request → Prop
  | .editAttribute _ f => ∀ a u b, Attribute.Structural a → f a = .ok (u, b) → b.Structural
  | _ => True

/-- The attributes of the series are structural, and the committed ones are frozen. -/
abbrev Structural (x : Series) : Prop := x.Sealed Attribute.Structural

/-- The series `y` comes of `x` by requests that put no other property on a reserved attribute. -/
def Leads (x y : Series) : Prop :=
  ∃ rs : List Request, (∀ r ∈ rs, r.KeepsTypes) ∧ rs.foldl serve x = y

variable {x y : Series}

theorem Structural.serve (h : x.Structural) {r : Request} (hr : r.KeepsTypes) :
    (x.serve r).Structural := by
  have hsteady := Attribute.steady_structural
  cases r with
  | addAttribute a => exact Sealed.addAttribute h hsteady Attribute.structural_of_custom
  | editAttribute n f => exact Sealed.editAttribute h hsteady n hr
  | _ => exact Sealed.serve h hsteady trivial

theorem Leads.structural (h : Leads x y) (hx : x.Structural) : y.Structural := by
  obtain ⟨rs, hrs, rfl⟩ := h
  induction rs generalizing x with
  | nil => exact hx
  | cons r rs ih =>
    obtain ⟨hr, hrs⟩ := List.forall_mem_cons.1 hrs
    exact ih (hx.serve hr) hrs

end Series

namespace Blueprint

/-- Whether a series that the request brings in is structural, and a series that it edits is changed
by requests that put no other property on a reserved attribute. -/
def Request.KeepsTypes : Request → Prop
  | .addSeries x => x.Structural
  | .editSeries _ f => ∀ x u y, f x = .ok (u, y) → Series.Leads x y
  | _ => True

/-- Whether the step is a request that keeps the types, or to save. -/
def Step.KeepsTypes : Step → Prop
  | .request r => r.KeepsTypes
  | .save _ => True

/-- A schema made of a new one by steps that keep the types. Between them, its properties may be
brought up to date, the built-in ones apart. -/
inductive Typed : Blueprint → Prop
  | new (x : Surrogate) (name : String) : Typed { surrogate := x, name }
  | step {b : Blueprint} {t : Step} (h : Typed b) (ht : t.KeepsTypes) : Typed (b.step t)
  | mapProperties {σ : Type} {f : PropertyMap σ} {s s' : σ} {b b' : Blueprint} (h : Typed b)
      (hf : ∀ n p s q s', Builtin.ofAttribute? n = some p → (f p).run s = .ok (q, s') → q = p)
      (hrun : (b.mapProperties f).run s = .ok (b', s')) : Typed b'

/-- All series are structural, and the committed ones are frozen. -/
abbrev Structural (b : Blueprint) : Prop :=
  b.definitions.series.Sealed (Series.Settled Attribute.Structural) Series.Structural

variable {b b' : Blueprint}

theorem Request.KeepsTypes.sealsSeries {r : Request} (hr : r.KeepsTypes) :
    r.SealsSeries Attribute.Structural := by
  cases r with
  | addSeriesAttribute n a => exact Attribute.structural_of_custom
  | addSeries x => exact hr
  | editSeries n f => exact fun x u y hx hy => (hr x u y hy).structural hx
  | _ => trivial

theorem Structural.serve (h : b.Structural) {r : Request} (hr : r.KeepsTypes) :
    (b.serve r).Structural := by
  have hrevise := sealed_series_revise Attribute.steady_structural h hr.sealsSeries
  have heffect := effect_serve b r
  generalize b.serve r = b' at heffect
  cases heffect with
  | refused => exact h
  | opened => exact h
  | rebased => exact h
  | valued => exact hrevise
  | restructured => exact hrevise

theorem Structural.step (h : b.Structural) {t : Step} (ht : t.KeepsTypes) :
    (b.step t).Structural := by
  cases t with
  | request r => exact h.serve ht
  | save db =>
    obtain ⟨e, db', -, hs⟩ | ⟨db', b', -, hs, hsaved⟩ := db.saveSession_cases b
    · rw [Blueprint.step, hs]
      exact h
    · rw [Blueprint.step, hs]
      have hclosed : b'.definitions = b.definitions.consolidate :=
        congrArg Blueprint.definitions hsaved.closed
      change b'.Structural
      rw [Structural, hclosed]
      exact Container.Sealed.consolidate h (Series.passes Attribute.steady_structural)

theorem Structural.mapProperties {σ : Type} {f : PropertyMap σ} {s s' : σ} (h : b.Structural)
    (hf : ∀ n p s q s', Builtin.ofAttribute? n = some p → (f p).run s = .ok (q, s') → q = p)
    (hrun : (b.mapProperties f).run s = .ok (b', s')) : b'.Structural := by
  obtain ⟨d, s₁, hd, hb'⟩ := run_bind_eq_ok_iff.1 hrun
  obtain ⟨rfl, rfl⟩ := run_pure_eq_ok_iff.1 hb'
  obtain ⟨c, s₂, e, hc, he, rfl⟩ := Definitions.mapProperties_eq_ok_iff.1 hd
  have hold := Series.holds_of_sealed h
  refine Series.sealed_of_rebuild Attribute.steady_structural hold (fun x hx a ha p q s s' hp hq => ?_) he
  intro p' q' hp' hq'
  have hpp : p = p' := hold x hx a ha p' p hp' hp
  have hqp : q = p := hf a.number p s q s' (hpp ▸ hp') hq
  have hqq : q = q' := Option.some.inj hq'
  rw [← hqq, hqp, hpp]

theorem Typed.structural (h : Typed b) : b.Structural := by
  induction h with
  | new x name => exact Container.sealed_empty
  | step h ht ih => exact ih.step ht
  | mapProperties h hf hrun ih => exact ih.mapProperties hf hrun

end Blueprint

theorem Definitions.Flattens.structural {levels : List Definitions} {d : Definitions}
    (h : Flattens levels d)
    (hlevels : ∀ level ∈ levels, ∀ y ∈ level.series.components,
      ∀ a ∈ y.attributes.components, a.Structural) :
    ∀ x ∈ d.series.components, ∀ n a, x.attributes.get? n = some a →
      a.number = n ∧ a.Structural := by
  intro x hx n a ha
  obtain ⟨m, hm⟩ := SortedMap.mem_values_iff.1 hx
  have hattributes := (h.series.made_of m x hm).attributes_flattens
  have hview : x.attributes.view = x.attributes.committed := by
    rw [view, hattributes.buffer_eq, Option.getD_none]
  have hnumber : a.number = n := hattributes.consistent.number_eq n a (hview ▸ ha)
  refine ⟨hnumber, fun p q hp hq => ?_⟩
  have hproperty := (hattributes.made_of n a ha).property_eq
  rw [hq, eq_comm] at hproperty
  -- The property is that of a definition of the same number in one of the levels.
  obtain ⟨e, he, hqe⟩ := List.exists_of_findSome?_eq_some hproperty
  obtain ⟨c, hc, he⟩ := exists_mem_definitionsOf he
  obtain ⟨y, hy, rfl⟩ := List.mem_map.1 hc
  obtain ⟨c, hc, hy⟩ := exists_mem_definitionsOf hy
  obtain ⟨level, hlevel, rfl⟩ := List.mem_map.1 hc
  obtain ⟨he, hen⟩ := mem_definitionsOf he
  have hstructural : e.Structural := hlevels level hlevel y (mem_definitionsOf hy).1 e he
  have hpe : Builtin.ofAttribute? e.number = some p := by
    rw [show e.number = a.number from Eq.trans hen hnumber.symm, hp]
  exact hstructural p q hpe hqe

namespace Container

variable {T : Type} [Component T]

theorem isComplete_of_allComplete {l : List T} (h : allComplete l = .ok true) :
    ∀ x ∈ l, Component.isComplete x = .ok true := by
  induction l with
  | nil => exact fun x hx => by cases hx
  | cons y l ih =>
    obtain ⟨complete, hy, h⟩ := bind_eq_ok_iff.1 h
    cases complete with
    | false => cases pure_eq_ok_iff.1 h
    | true => exact List.forall_mem_cons.2 ⟨hy, ih h⟩

theorem isComplete_of_isComplete {c : Container T} (h : c.isComplete = .ok true) :
    ∀ x ∈ c.components, Component.isComplete x = .ok true := by
  obtain ⟨complete, hall, h⟩ := bind_eq_ok_iff.1 h
  dsimp only at h
  split_ifs at h
  · obtain ⟨u, hthrow, -⟩ := bind_eq_ok_iff.1 h
    cases hthrow
  · exact isComplete_of_allComplete (pure_eq_ok_iff.1 h ▸ hall)

theorem isComplete_of_firstIncomplete? {c : Container T} (h : c.firstIncomplete? = .ok none) :
    ∀ x ∈ c.components, Component.isComplete x = .ok true := by
  unfold firstIncomplete? at h
  generalize c.components = l at h
  induction l with
  | nil => exact fun x hx => by cases hx
  | cons y l ih =>
    obtain ⟨complete, hy, h⟩ := bind_eq_ok_iff.1 h
    cases complete with
    | false => cases pure_eq_ok_iff.1 h
    | true => exact List.forall_mem_cons.2 ⟨hy, ih h⟩

end Container

theorem Blueprint.isComplete_of_resolve {source : Source} {config : ResolutionConfig} {b : Blueprint}
    {schema : Schema} (h : b.resolve source config = .ok schema)
    (hcomplete : config.requireComplete = true) :
    ∀ x ∈ schema.definitions.series.components, x.isComplete = .ok true := by
  obtain ⟨s, -, h⟩ := bind_eq_ok_iff.1 h
  rw [if_pos hcomplete] at h
  obtain ⟨u, hensure, h⟩ := bind_eq_ok_iff.1 h
  obtain rfl : s = schema := pure_eq_ok_iff.1 h
  obtain ⟨missing, hmissing, hnone⟩ := bind_eq_ok_iff.1 hensure
  cases missing with
  | some missing => cases hnone
  | none =>
    have hmissing : s.definitions.incompleteness? = .ok none := mapError_eq_ok_iff.1 hmissing
    unfold Definitions.incompleteness? at hmissing
    split_ifs at hmissing
    · cases pure_eq_ok_iff.1 hmissing
    obtain ⟨a, -, hmissing⟩ := bind_eq_ok_iff.1 hmissing
    cases a with
    | some a => cases pure_eq_ok_iff.1 hmissing
    | none =>
      obtain ⟨x, hx, hmissing⟩ := bind_eq_ok_iff.1 hmissing
      cases x with
      | some x => cases pure_eq_ok_iff.1 hmissing
      | none => exact Container.isComplete_of_firstIncomplete? hx

theorem ValueType.mem_of_accepts_ofTexts {surrogate : Surrogate} {name t : String}
    {texts : List String} (h : (ofTexts surrogate name texts).accepts (.text t)) : t ∈ texts := by
  have hallowed : (SortedMap.ofList (texts.map fun s => (s, (none : Option String)))).contains t := by
    by_contra hnone
    simp [accepts, check, ofTexts, Value.kind, Value.toText, hnone, Except.isOk, Except.toBool] at h
  obtain ⟨about, habout⟩ := SortedMap.contains_iff.1 hallowed
  obtain ⟨s, hs, he⟩ := List.mem_map.1 (SortedMap.mem_of_get?_ofList habout)
  cases he
  exact hs

namespace Series

/-- A series with the built-in properties at its reserved attributes, of one of the kinds of values
and with one of the built-in time domains. -/
structure WellTyped (x : Series) : Prop where
  reserved : ∀ n p, Builtin.ofAttribute? n = some p →
    ∃ a, x.attributes.get? n = some a ∧ a.property = some p
  kind : ∃ kind ∈ ValueKind.all, x.valueKind? = some kind
  domain : ∃ domain ∈ Builtin.timeDomains, x.timeDomain? = some domain

variable {x : Series}

theorem exists_of_structural? {n : UInt32} {t : String} (h : x.structural? n = some t) :
    ∃ a, x.attributes.get? n = some a ∧ a.value = some (.text t) := by
  obtain ⟨v, hv, ht⟩ := Option.bind_eq_some_iff.1 h
  obtain ⟨a, ha, hav⟩ := Option.bind_eq_some_iff.1 hv
  cases v with
  | text s =>
    obtain rfl : s = t := Option.some.inj ht
    exact ⟨a, ha, hav⟩
  | _ => cases ht

theorem isComplete_attributes (h : x.isComplete = .ok true) :
    x.name?.isSome ∧ x.valueKind?.isSome ∧ x.timeDomain?.isSome ∧
      ∀ n a, x.attributes.get? n = some a → a.isComplete := by
  unfold isComplete at h
  split_ifs at h with hparts
  · simp only [Bool.and_eq_true] at hparts
    obtain ⟨⟨⟨-, hname⟩, hkind⟩, hdomain⟩ := hparts
    refine ⟨hname, hkind, hdomain, fun n a ha => ?_⟩
    have hmem : a ∈ x.attributes.components := SortedMap.mem_values_iff.2 ⟨n, ha⟩
    exact Except.ok.inj (isComplete_of_isComplete h a hmem)
  · cases h

/-- Completeness asks for what the built-in properties accept where the attributes have these. -/
theorem wellTyped_of_isComplete (h : x.isComplete = .ok true)
    (hx : ∀ n a, x.attributes.get? n = some a → a.number = n ∧ a.Structural) : x.WellTyped := by
  obtain ⟨hname, hkind, hdomain, hattributes⟩ := isComplete_attributes h
  have hproperty : ∀ n t p, x.structural? n = some t → Builtin.ofAttribute? n = some p →
      ∃ a, x.attributes.get? n = some a ∧ a.property = some p ∧ p.accepts (some (.text t)) := by
    intro n t p ht hp
    obtain ⟨a, ha, hv⟩ := exists_of_structural? ht
    obtain ⟨hnumber, hstructural⟩ := hx n a ha
    have hcomplete := hattributes n a ha
    simp only [Attribute.isComplete, Bool.and_eq_true, Option.any_eq_true] at hcomplete
    obtain ⟨-, q, hq, haccepts⟩ := hcomplete
    obtain rfl : q = p := hstructural p q (hnumber ▸ hp) hq
    exact ⟨a, ha, hq, hv ▸ haccepts⟩
  obtain ⟨name, hname⟩ := Option.isSome_iff_exists.1 hname
  obtain ⟨kind, hkind⟩ := Option.isSome_iff_exists.1 hkind
  obtain ⟨domain, hdomain⟩ := Option.isSome_iff_exists.1 hdomain
  refine ⟨fun n p hp => ?_, ⟨kind, by cases kind <;> decide, hkind⟩, domain, ?_, hdomain⟩
  · obtain ⟨t, ht⟩ : ∃ t, x.structural? n = some t := by
      obtain ⟨text, htext, -⟩ := Option.bind_eq_some_iff.1 hkind
      have hp' := hp
      unfold Builtin.ofAttribute? at hp'
      split_ifs at hp' with hn hn hn
      · exact ⟨name, hn ▸ hname⟩
      · exact ⟨text, hn ▸ htext⟩
      · exact ⟨domain, hn ▸ hdomain⟩
    obtain ⟨a, ha, hap, -⟩ := hproperty n t p ht hp
    exact ⟨a, ha, hap⟩
  · obtain ⟨a, -, -, haccepts⟩ := hproperty _ domain Builtin.timeDomainProperty hdomain rfl
    exact ValueType.mem_of_accepts_ofTexts haccepts

end Series

namespace Blueprint

/-- If no edit has put another property on a reserved attribute, neither of the schema nor of those
of the source, every series of a schema that is resolved as complete has the built-in properties at
its reserved attributes, one of the kinds of values and one of the built-in time domains. -/
theorem wellTyped_of_resolve {source : Source} {config : ResolutionConfig} {b : Blueprint}
    {schema : Schema} (hb : b.Typed) (hsource : ∀ name c, source name = .ok (some c) → c.Typed)
    (hcomplete : config.requireComplete = true) (h : b.resolve source config = .ok schema) :
    ∀ x ∈ schema.definitions.series.components, x.WellTyped := by
  obtain ⟨chain, d, hchain, hd, rfl⟩ := merge_eq_ok (merge_of_resolve h)
  have hlevels : ∀ level ∈ chain.map (·.definitions), ∀ y ∈ level.series.components,
      ∀ a ∈ y.attributes.components, a.Structural := by
    intro level hlevel
    obtain ⟨c, hc, rfl⟩ := List.mem_map.1 hlevel
    have htyped : c.Typed := by
      rcases mem_of_walk hchain hc with hself | ⟨name, hname⟩
      · exact List.mem_singleton.1 hself ▸ hb
      · exact hsource name c hname
    exact Series.holds_of_sealed htyped.structural
  intro x hx
  have hattributes := (flatten_flattens hd).structural hlevels x hx
  exact Series.wellTyped_of_isComplete (isComplete_of_resolve h hcomplete x hx) hattributes

def sampleSeries : Series :=
  [.setStructural Builtin.seriesName "price", .setStructural Builtin.seriesKind "float",
    .setStructural Builtin.seriesTimeDomain "day"].foldl Series.serve { number := 1 }

def sampleEdit (f : Attribute → Except Error Attribute) : Step :=
  .request <| .editSeries 1 fun x =>
    (x.editAttribute Builtin.seriesTimeDomain fun a => (f a).map ((), ·)).commit

def sampleTyped (f : Attribute → Except Error Attribute) : Blueprint :=
  ([.request (.addSeries sampleSeries), sampleEdit f] : List Step).foldl step
    { surrogate := .pending ⟨1⟩ .schema, name := "s" }

def noSchema : Source := fun _ => .ok none

theorem wellTyped_of_resolve_sample :
    ∃ schema, (sampleTyped (·.setValue (some (.text "week")))).resolve noSchema {} = .ok schema ∧
      schema.definitions.series.components.map (·.timeDomain?) = [some "week"] ∧
      ∀ x ∈ schema.definitions.series.components, x.WellTyped := by
  have hseries : Series.Leads { number := 1 } sampleSeries :=
    ⟨_, by simp [Series.Request.KeepsTypes], rfl⟩
  have hadd : Step.KeepsTypes (.request (.addSeries sampleSeries)) :=
    hseries.structural (Series.sealed_new 1)
  have hedit : (sampleEdit (·.setValue (some (.text "week")))).KeepsTypes := by
    intro x u y hy
    obtain ⟨-, rfl⟩ := Outcome.commit_eq_ok_iff.1 hy
    refine ⟨[.editAttribute _ _], List.forall_mem_singleton.2 ?_, rfl⟩
    exact fun a u b ha hb => Attribute.steady_structural.map_setValue ha hb
  have htyped : (sampleTyped (·.setValue (some (.text "week")))).Typed :=
    ((Typed.new _ _).step hadd).step hedit
  have hsource : ∀ name c, noSchema name = .ok (some c) → c.Typed := by
    intro name c hc
    cases Except.ok.inj hc
  have hok : ((sampleTyped (·.setValue (some (.text "week")))).resolve noSchema {}).toOption.map
      (fun s => s.definitions.series.components.map (·.timeDomain?)) = some [some "week"] := by
    decide +kernel
  cases hr : (sampleTyped (·.setValue (some (.text "week")))).resolve noSchema {} with
  | error e => simp [hr, Except.toOption] at hok
  | ok schema =>
    rw [hr] at hok
    exact ⟨schema, rfl, Option.some.inj hok, wellTyped_of_resolve htyped hsource rfl hr⟩

def sampleText : Property where
  surrogate := .committed ⟨1⟩ .property 1
  name := "text"
  valueType := { surrogate := .committed ⟨1⟩ .valueType 1, name := "text", kind := .text }

/-- Another property put on the time domain lets it be any text, and the schema is complete. -/
theorem wellTyped_of_resolve_retyped :
    ∃ schema, (sampleTyped fun a => do
        (← a.setProperty (some sampleText)).setValue (some (.text "fortnight"))).resolve noSchema {} =
          .ok schema ∧
      ∃ x ∈ schema.definitions.series.components, x.timeDomain? = some "fortnight" ∧
        "fortnight" ∉ Builtin.timeDomains ∧ ¬x.WellTyped := by
  have hok : ((sampleTyped fun a => do
      (← a.setProperty (some sampleText)).setValue (some (.text "fortnight"))).resolve
        noSchema {}).toOption.map (fun s => s.definitions.series.components.map (·.timeDomain?)) =
      some [some "fortnight"] := by
    decide +kernel
  have hother : "fortnight" ∉ Builtin.timeDomains := by decide
  cases hr : (sampleTyped fun a => do
      (← a.setProperty (some sampleText)).setValue (some (.text "fortnight"))).resolve noSchema {} with
  | error e => simp [hr, Except.toOption] at hok
  | ok schema =>
    rw [hr] at hok
    have hdomains : schema.definitions.series.components.map (·.timeDomain?) = [some "fortnight"] :=
      Option.some.inj hok
    have hmem : some "fortnight" ∈ schema.definitions.series.components.map (·.timeDomain?) := by
      rw [hdomains]
      exact List.mem_cons_self
    obtain ⟨x, hx, hxd⟩ := List.mem_map.1 hmem
    refine ⟨schema, rfl, x, hx, hxd, hother, fun h => ?_⟩
    obtain ⟨domain, hdomain, hxdomain⟩ := h.domain
    exact hother (Option.some.inj (hxd.symm.trans hxdomain) ▸ hdomain)

end Blueprint

end ChronicleMeta
