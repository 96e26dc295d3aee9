import ChronicleMeta.Proofs.Blueprint.EditMode
import ChronicleMeta.Proofs.Store.Request

/-!
The schemas of a store, in whatever order objects are stored, replaced and deleted: they are all
closed, and their attributes have the property that those of the schemas that are stored have, if
they keep it where a property is replaced.
-/

namespace ChronicleMeta.Store

variable {F : Attribute → Prop} {s : Store}

/-- Whether each stored attribute that refers to the property keeps `F` when `p` takes its place. -/
def Replaces (F : Attribute → Prop) (s : Store) (p : Property) : Prop :=
  ∀ n b, s.schemas.get? n = some b → ∀ a ∈ b.definitions.allAttributes, ∀ q,
    a.property = some q → q.surrogate.agrees p.surrogate → F { a with property := some p }

/-- Whether the schema that a request brings in has attributes with `F` and is frozen where it is
committed, and stored attributes keep `F` if the request replaces a property. -/
def Admits (F : Attribute → Prop) (s : Store) : Request → Prop
  | .createSchema b | .updateSchema b => b.definitions.Sealed F
  | .updateProperty p => (s.updateProperty p).result = .ok () → s.Replaces F p
  | _ => True

/-- Every stored schema is closed, and its attributes have the property. -/
def Sealed (F : Attribute → Prop) (s : Store) : Prop :=
  ∀ n b, s.schemas.get? n = some b → b.Orderly F ∧ b.editing = false

theorem sealed_empty (database : DatabaseId) : Sealed F { database } := by
  intro n b hb
  simp at hb

/-- No request makes a closed schema of the store one that is not. -/
theorem Sealed.serve (h : s.Sealed F) (hF : Attribute.Steady F) {r : Request} (hr : s.Admits F r) :
    (s.serve r).Sealed F := by
  intro n b' hb'
  cases origin_of_serve hb' with
  | kept hb => exact h n b' hb
  | @brought b x hbrings =>
    have hsealed : b.definitions.Sealed F := by
      cases r <;> cases hbrings <;> exact hr
    have hclose : (Blueprint.close { b with surrogate := x }).Orderly F :=
      Blueprint.orderly_close hF hsealed
    exact ⟨hclose, rfl⟩
  | @rewritten p b _ hp hok hb hrun =>
    subst hp
    obtain ⟨hordered, hclosed⟩ := h n b hb
    have hrest := hordered.resting hclosed
    obtain ⟨d, u, hd, hrun⟩ := run_bind_eq_ok_iff.1 hrun
    obtain ⟨rfl, -⟩ := run_pure_eq_ok_iff.1 hrun
    have hsealed := hordered.definitions.mapProperties hF hrest
      (fun a ha q r _ _ hq hstep => by
        obtain ⟨hstep, -⟩ := run_pure_eq_ok_iff.1 hstep
        split_ifs at hstep with hagrees
        · exact hstep ▸ hr hok n b hb a ha q hq hagrees
        · have ha := (hordered.definitions.forall_mem_allAttributes hrest a ha).holds
          rw [← hstep, ← hq]
          exact ha) hd
    exact ⟨⟨hsealed, hordered.exclusive, hordered.unrecorded,
      fun _ => Definitions.resting_mapProperties hd⟩, hclosed⟩

/-- Schemas that sessions have left keep the store closed, whatever property is replaced. -/
theorem Sealed.run (h : s.Sealed fun _ => True) {rs : List Request}
    (hrs : ∀ r ∈ rs, ∀ b, r.schema? = some b → b.definitions.Sealed fun _ => True) :
    (rs.foldl Store.serve s).Sealed fun _ => True := by
  induction rs generalizing s with
  | nil => exact h
  | cons r rs ih =>
    obtain ⟨hr, hrs⟩ := List.forall_mem_cons.1 hrs
    have hadmits : s.Admits (fun _ => True) r := by
      cases r with
      | createSchema b | updateSchema b => exact hr b rfl
      | updateProperty p => exact fun _ _ _ _ _ _ _ _ _ => trivial
      | _ => trivial
    exact ih (h.serve Attribute.steady_true hadmits) hrs

end ChronicleMeta.Store
