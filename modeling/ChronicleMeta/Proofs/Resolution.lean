import ChronicleMeta.Blueprint.Resolution
import ChronicleMeta.Proofs.Definitions

/-!
A resolved schema is its chain of bases, flattened. The chain are the schemas that are met when bases are
followed to one without a base.
-/

namespace ChronicleMeta.Blueprint

open Definitions (Flattens Lays)

variable {source : Source} {maxDepth room : Nat} {start : String} {visited : List String}
  {walked chain : List Blueprint} {next : Option String}

/-- All that a walk that ends can do: stop where there is no base, or go on with one it has not met. -/
theorem walk_eq_ok_iff : walk source maxDepth start room visited walked next = .ok chain ↔
    (next = none ∧ walked = chain) ∨
      ∃ name base room', next = some name ∧ room = room' + 1 ∧ name ∉ visited ∧
        source name = .ok (some base) ∧
        walk source maxDepth start room' (name :: visited) (walked ++ [base]) base.base =
          .ok chain := by
  cases next with
  | none => cases room <;> simp [walk]
  | some name =>
    rw [walk.eq_def]
    dsimp only
    by_cases hvisited : name ∈ visited
    · simp [hvisited]
    · cases room with
      | zero => simp [hvisited]
      | succ room =>
        rw [if_neg hvisited, bind_eq_ok_iff]
        constructor
        · rintro ⟨found, hfound, h⟩
          cases found with
          | none => cases h
          | some base => exact .inr ⟨name, base, room, rfl, rfl, hvisited, hfound, h⟩
        · rintro (⟨hnone, -⟩ | ⟨name', base, room', hname, hroom, -, hbase, h⟩)
          · cases hnone
          · cases hname
            cases hroom
            exact ⟨some base, hbase, h⟩

/-- The schemas that are met when bases are followed to one without a base. -/
inductive Bases (source : Source) : Option String → List Blueprint → Prop
  | nil : Bases source none []
  | cons {name : String} {base : Blueprint} {l : List Blueprint}
      (h : source name = .ok (some base)) (hl : Bases source base.base l) :
      Bases source (some name) (base :: l)

theorem bases_of_walk (h : walk source maxDepth start room visited walked next = .ok chain) :
    ∃ l, chain = walked ++ l ∧ Bases source next l := by
  induction room generalizing visited walked next with
  | zero =>
    obtain ⟨rfl, rfl⟩ | ⟨name, base, room', -, hroom, -⟩ := walk_eq_ok_iff.1 h
    · exact ⟨[], (List.append_nil walked).symm, .nil⟩
    · cases hroom
  | succ room ih =>
    obtain ⟨rfl, rfl⟩ | ⟨name, base, room', rfl, hroom, -, hbase, h⟩ := walk_eq_ok_iff.1 h
    · exact ⟨[], (List.append_nil walked).symm, .nil⟩
    · cases hroom
      obtain ⟨l, rfl, hl⟩ := ih h
      exact ⟨base :: l, List.append_assoc walked [base] l, .cons hbase hl⟩

/-- What is true of no level, and kept by each level that is laid over others, is true of levels laid
over one another. -/
theorem invariant_of_foldrM {P : List Definitions → Definitions → Prop} (hnil : P [] {})
    (hcons : ∀ level levels d d', P levels d → d.merge level = .ok d' → P (level :: levels) d')
    {levels : List Definitions} {d : Definitions}
    (h : levels.foldrM (fun level d => Definitions.merge d level) {} = .ok d) : P levels d := by
  induction levels generalizing d with
  | nil =>
    obtain rfl := pure_eq_ok_iff.1 h
    exact hnil
  | cons level bases ih =>
    rw [List.foldrM_cons] at h
    obtain ⟨below, hbelow, h⟩ := bind_eq_ok_iff.1 h
    exact hcons level bases below d (ih hbelow) h

theorem flatten_flattens {levels : List Definitions} {d : Definitions}
    (h : flatten levels = .ok d) : Flattens levels d := by
  obtain ⟨laid, hl, rfl⟩ := map_eq_ok_iff.1 h
  rw [List.foldlM_reverse] at hl
  have hlays : Lays levels laid :=
    invariant_of_foldrM Definitions.lays_nil (fun _ _ _ _ h => h.merge) hl
  exact hlays.flattens

theorem merge_eq_ok {b : Blueprint} {schema : Schema}
    (h : b.merge source maxDepth = .ok schema) :
    ∃ chain d, b.chain source maxDepth = .ok chain ∧ flatten (chain.map (·.definitions)) = .ok d ∧
      schema = { surrogate := b.surrogate, name := b.name, definitions := d,
                 dependencies := chain.map (·.surrogate) } := by
  obtain ⟨chain, hc, h⟩ := bind_eq_ok_iff.1 h
  obtain ⟨d, hd, h⟩ := bind_eq_ok_iff.1 h
  exact ⟨chain, d, hc, hd, by simpa [pure, Except.pure, eq_comm] using h⟩

theorem merge_of_resolve {config : ResolutionConfig} {b : Blueprint}
    {schema : Schema} (h : b.resolve source config = .ok schema) :
    b.merge source config.maxDepth = .ok schema := by
  obtain ⟨s, hs, h⟩ := bind_eq_ok_iff.1 h
  have hs : b.merge source config.maxDepth = .ok s := mapError_eq_ok_iff.1 hs
  dsimp only at h
  split_ifs at h
  · obtain ⟨-, -, h⟩ := bind_eq_ok_iff.1 h
    rw [hs, show s = schema by simpa [pure, Except.pure] using h]
  · rw [hs, show s = schema by simpa [pure, Except.pure] using h]

/-- A schema that is merged or resolved is flattened from the levels of its chain, which are the schema
and the bases that are met when they are followed to one without a base: a number is there exactly if
some level defines it and no more derived one removes it, each field is that of the most derived
definition that sets it after the last removal, and so for the attributes of each series; nothing is a
removal, nothing is open and everything is frozen. -/
theorem flattens_of_resolution {config : ResolutionConfig} {b : Blueprint} {schema : Schema}
    (h : b.merge source config.maxDepth = .ok schema ∨ b.resolve source config = .ok schema) :
    ∃ bases, b.chain source config.maxDepth = .ok (b :: bases) ∧ Bases source b.base bases ∧
      Flattens ((b :: bases).map (·.definitions)) schema.definitions := by
  have hm : b.merge source config.maxDepth = .ok schema := h.elim id merge_of_resolve
  obtain ⟨chain, d, hc, hd, rfl⟩ := merge_eq_ok hm
  obtain ⟨bases, rfl, hbases⟩ := bases_of_walk hc
  exact ⟨bases, hc, hbases, flatten_flattens hd⟩

def sampleRoot : Blueprint where
  surrogate := .committed ⟨1⟩ .schema 1
  name := "root"
  definitions := {
    attributes := { committed := {
      byNumber := .ofList [
        (1, { number := 1, property := some Builtin.nameProperty, value := some (.text "r") }),
        (2, { number := 2, property := some Builtin.kindProperty })]
      byName := .ofList [("series.name", 1), ("series.type", 2)] } }
    series := { committed := {
      byNumber := .ofList [(1, { number := 1, description := some "of the root" })] } } }

/-- A schema that removes an attribute and the series of the root and sets the value of another
attribute. -/
def sampleMiddle : Blueprint where
  surrogate := .committed ⟨1⟩ .schema 2
  name := "middle"
  base := some "root"
  definitions := {
    attributes := { committed := {
      byNumber := .ofList [
        (1, { number := 1, erasing := true }),
        (2, { number := 2, value := some (.text "float") })] } }
    series := { committed := { byNumber := .ofList [(1, { number := 1, erasing := true })] } } }

def sampleDerived : Blueprint where
  surrogate := .committed ⟨1⟩ .schema 3
  name := "derived"
  base := some "middle"
  definitions := {
    attributes := { committed := {
      byNumber := .ofList [(1, { number := 1, property := some Builtin.timeDomainProperty })]
      byName := .ofList [("series.time_domain", 1)] } }
    series := { committed := {
      byNumber := .ofList [(1, {
        number := 1
        attributes := { committed := {
          byNumber := .ofList [(1, {
            number := 1, property := some Builtin.nameProperty, value := some (.text "s") })]
          byName := .ofList [("series.name", 1)] } } })]
      byName := .ofList [("s", 1)] } } }

def sampleSource : Source := fun name => .ok ([sampleRoot, sampleMiddle].find? (·.name = name))

theorem flattens_of_resolution_sample :
    ∃ schema, sampleDerived.merge sampleSource 64 = .ok schema ∧
      sampleDerived.chain sampleSource 64 = .ok [sampleDerived, sampleMiddle, sampleRoot] ∧
      Bases sampleSource (some "middle") [sampleMiddle, sampleRoot] ∧
      Flattens ([sampleDerived, sampleMiddle, sampleRoot].map (·.definitions)) schema.definitions := by
  have hok : (sampleDerived.merge sampleSource 64).toOption.isSome = true := by decide +kernel
  cases hm : sampleDerived.merge sampleSource 64 with
  | error e => simp [hm, Except.toOption] at hok
  | ok schema =>
    have hresolved : sampleDerived.merge sampleSource ({} : ResolutionConfig).maxDepth = .ok schema ∨
        sampleDerived.resolve sampleSource {} = .ok schema := .inl hm
    obtain ⟨bases, hchain, hbases, hflattens⟩ := flattens_of_resolution hresolved
    have hmet : sampleDerived.chain sampleSource 64 =
        .ok [sampleDerived, sampleMiddle, sampleRoot] := rfl
    obtain rfl : bases = [sampleMiddle, sampleRoot] :=
      (List.cons.inj (Except.ok.inj (hchain.symm.trans hmet))).2
    exact ⟨schema, rfl, hchain, hbases, hflattens⟩

end ChronicleMeta.Blueprint
