import ChronicleMeta.Proofs.Attribute
import ChronicleMeta.Proofs.Database.Operation

/-!
Stored default values and the types of their properties. Each fits where it is set, and it goes on
to fit as long as a property that replaces a stored one accepts the default values stored with it:
this is the one thing that is not checked.
-/

namespace ChronicleMeta

namespace Attribute

variable {a : Attribute}

def fits (a : Attribute) : Bool :=
  match a.property, a.value with
  | some p, some v => p.valueType.accepts v
  | _, _ => true

theorem fits_iff : a.fits ↔ a.Fitting := by
  unfold fits Fitting
  cases a.property with
  | none => simp
  | some p =>
    cases a.value with
    | none => simp
    | some v => simp [check_eq_ok_iff]

theorem steady_fitting : Steady Fitting where
  removal n := by simp [Fitting]
  definition n p v a _ h := by
    obtain ⟨hcheck, rfl⟩ := ofProperty_eq_ok_iff.1 h
    exact fitting_of_checkPair hcheck
  editable _ _ h := h
  value a v b _ h := by
    obtain ⟨-, hcheck, rfl⟩ := setValue_eq_ok_iff.1 h
    exact fitting_of_checkPair hcheck

end Attribute

namespace Store

/-- Whether the property accepts each default value that is stored with the one whose place it
takes. -/
def acceptsDefaults (s : Store) (p : Property) : Bool :=
  s.schemas.values.all fun b => b.definitions.allAttributes.all fun a =>
    !a.property.any (·.surrogate.agrees p.surrogate) || { a with property := some p }.fits

theorem replaces_iff {s : Store} {p : Property} :
    s.Replaces Attribute.Fitting p ↔ s.acceptsDefaults p := by
  unfold acceptsDefaults
  rw [List.all_eq_true]
  constructor
  · intro h b hb
    obtain ⟨n, hn⟩ := SortedMap.mem_values_iff.1 hb
    rw [List.all_eq_true]
    intro a ha
    cases hp : a.property with
    | none => rfl
    | some q =>
      cases hagrees : q.surrogate.agrees p.surrogate with
      | false => simp [hagrees]
      | true => simpa [hagrees] using Attribute.fits_iff.2 (h n b hn a ha q hp hagrees)
  · intro h n b hb a ha q hp hagrees
    have hfits := List.all_eq_true.1 (h b (SortedMap.mem_values_iff.2 ⟨n, hb⟩)) a ha
    rw [hp] at hfits
    exact Attribute.fits_iff.1 (by simpa [hagrees] using hfits)

end Store

namespace Workspace

/-- Over every run of operations on a database and on its store, with any number of schemas in
sessions: each default value in a stored schema, of an attribute of chronicles or of series, is of
the type of its property, if each attribute that is brought in has such a value and each property
that replaces a stored one accepts the default values stored with it. -/
theorem defaults_run (database : DatabaseId) {capacity : Nat} (h : 0 < capacity) (naming : Naming)
    (resolution : ResolutionConfig) {ops : List Operation}
    (hops : (fresh database capacity h naming resolution).Admissible Attribute.Fitting ops) :
    let s := ((fresh database capacity h naming resolution).performAll ops).database.store
    ∀ n b, s.schemas.get? n = some b → ∀ a ∈ b.definitions.allAttributes, ∀ p v,
      a.property = some p → a.value = some v → p.valueType.check v = .ok () := by
  intro s n b hb a ha
  have hsealed :=
    (sealed_fresh database h naming resolution).performAll Attribute.steady_fitting hops
  obtain ⟨horderly, hclosed⟩ := hsealed.store n b hb
  exact (horderly.definitions.forall_mem_allAttributes (horderly.resting hclosed) a ha).holds

def sampleProperty (kind : ValueKind) : Property where
  surrogate := .committed ⟨1⟩ .property 1
  name := "count"
  valueType := { surrogate := .pending ⟨1⟩ .valueType, name := "number", kind }

/-- A property of integers is stored, and then a schema with an attribute of the property and a
default value. The property is replaced by another one. -/
def sampleOperations (p : Property) : List Operation := [
  .toStore
    (.createProperty { sampleProperty .integer with surrogate := .pending ⟨1⟩ .property }) rfl,
  .request (.newSchema "s"),
  .step 0 (.request (.addAttribute
    { number := 1, property := some (sampleProperty .integer), value := some (.integer 5) })),
  .apply 0, .toStore (.updateProperty p) rfl]

def sampleWorkspace : Workspace := fresh ⟨1⟩ 1 Nat.one_pos {} {}

/-- The operations are admissible if the property accepts the default value. -/
theorem admissible_sample {p : Property}
    (h : (sampleWorkspace.performAll
      ((sampleOperations p).take 4)).database.store.acceptsDefaults p) :
    sampleWorkspace.Admissible Attribute.Fitting (sampleOperations p) := by
  refine ⟨trivial, trivial, ?_, trivial, fun _ => Store.replaces_iff.2 h, trivial⟩
  exact Attribute.fits_iff.1 rfl

def replacedStore (p : Property) : Store :=
  (sampleWorkspace.performAll (sampleOperations p)).database.store

/-- A property of integers that has another name takes the place of the stored one. -/
theorem defaults_run_sample :
    let p : Property := { sampleProperty .integer with name := "number" }
    sampleWorkspace.Admissible Attribute.Fitting (sampleOperations p) ∧
      ((replacedStore p).schemas.get? "s").map (fun b =>
        b.definitions.allAttributes.map fun a => (a.property.map (·.name), a.value)) =
          some [(some "number", some (.integer 5))] ∧
      ∀ n b, (replacedStore p).schemas.get? n = some b → ∀ a ∈ b.definitions.allAttributes, ∀ q v,
        a.property = some q → a.value = some v → q.valueType.check v = .ok () := by
  intro p
  have hops : sampleWorkspace.Admissible Attribute.Fitting (sampleOperations p) :=
    admissible_sample (by decide +kernel)
  exact ⟨hops, by decide +kernel, defaults_run ⟨1⟩ Nat.one_pos {} {} hops⟩

/-- A property of texts takes the place of the stored one, and the default value is of its type no
more. -/
theorem defaults_run_misfit :
    ¬∀ n b, (replacedStore (sampleProperty .text)).schemas.get? n = some b →
      ∀ a ∈ b.definitions.allAttributes, ∀ p v,
        a.property = some p → a.value = some v → p.valueType.check v = .ok () := by
  intro h
  have hmisfit : ((replacedStore (sampleProperty .text)).schemas.get? "s").map
      (fun b => b.definitions.allAttributes.all Attribute.fits) = some false := by decide +kernel
  obtain ⟨b, hb, hall⟩ := Option.map_eq_some_iff.1 hmisfit
  obtain ⟨a, ha, hfits⟩ := List.all_eq_false.1 hall
  exact hfits (Attribute.fits_iff.2 (h "s" b hb a ha))

end Workspace

end ChronicleMeta
