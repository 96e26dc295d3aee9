import ChronicleMeta.Proofs.Arising
import ChronicleMeta.Proofs.Container.Names
import ChronicleMeta.Proofs.Container.Transaction

/-!
The transactions of containers of attributes and of series. What is consolidated is frozen, and so are the
attributes within the series, of which nothing else changes.
-/

namespace ChronicleMeta

open Component

namespace Container

variable {T : Type} [Component T] {c : Container T}

theorem passes_freeze : Passes (fun x : T => ∃ y, x = freeze y) fun _ => True where
  erasing _ := trivial
  thaw _ _ := trivial
  freeze x _ := ⟨x, rfl⟩

/-- What a container has consolidated has been frozen, then or before. -/
theorem Arises.exists_freeze (h : c.Arises fun _ => True) :
    ∀ x ∈ c.consolidate.components, ∃ y, x = freeze y := by
  have hsealed := h.sealed passes_freeze (fun _ _ => trivial) fun _ _ => trivial
  exact forall_mem_components (buffer_consolidate c) (hsealed.consolidate passes_freeze).committed

end Container

namespace Series

variable {x : Series}

/-- What a series has committed is frozen, however it has come about. -/
theorem Arises.sealed (h : x.Arises) : x.Sealed fun _ => True :=
  h.attributes.sealed (Attribute.passes Attribute.steady_true) (fun _ _ => trivial) fun _ _ => trivial

theorem passes_settled :
    Container.Passes (fun x => Arises x ∧ Settled (fun _ => True) x) Arises where
  erasing := passes_arises.erasing
  thaw x h := passes_arises.thaw x h.1
  freeze x h := ⟨passes_arises.freeze x h, (passes Attribute.steady_true).freeze x h.sealed⟩

end Series

/-- What a container of series has consolidated is frozen with the attributes in it. -/
theorem Container.Arises.forall_mem_frozen {c : Container Series} (h : c.Arises Series.Arises) :
    ∀ x ∈ c.consolidate.components, x.Frozen := by
  have hsealed := h.sealed Series.passes_settled (fun _ h => h.1) Series.passes_arises.thaw
  intro x hx
  have hsettled := forall_mem_components (buffer_consolidate c)
    (hsealed.consolidate Series.passes_settled).committed x hx
  exact hsettled.2.frozen

/-- The same attribute, but that it may be changed or not. -/
def Attribute.SameContents (a b : Attribute) : Prop := b = { a with editable := b.editable }

/-- The same series, but that it and its attributes may be changed or not. -/
structure Series.SameContents (x y : Series) : Prop where
  number_eq : y.number = x.number
  description_eq : y.description = x.description
  erasing_eq : y.erasing = x.erasing
  names_eq : y.attributes.view.byName = x.attributes.view.byName
  attributes : ∀ n, Option.Rel Attribute.SameContents (x.attributes.get? n) (y.attributes.get? n)

namespace Container

variable {T : Type} [Component T]

theorem view_consolidate (c : Container T) : c.consolidate.view = c.consolidate.committed := by
  rw [view, buffer_consolidate, Option.getD_none]

theorem rel_consolidate {R : T → T → Prop} (hrefl : ∀ x, R x x) (hfreeze : ∀ x, R x (freeze x))
    (c : Container T) (n : UInt32) : Option.Rel R (c.get? n) (c.consolidate.get? n) := by
  have hget : c.consolidate.get? n = c.consolidate.committed.byNumber.get? n := by
    rw [get?, view_consolidate]
  rw [hget]
  cases hx : c.get? n with
  | none =>
    obtain h | h := (commits_consolidate c).get? n
    · rw [h, hx]
      exact .none
    · rw [h, hx]
      exact .none
  | some x =>
    obtain h | h := (commits_consolidate c).get? n
    · rw [h, hx]
      exact .some (hrefl x)
    · rw [h, hx]
      exact .some (hfreeze x)

end Container

theorem Attribute.sameContents_consolidate (c : Container Attribute) (n : UInt32) :
    Option.Rel SameContents (c.get? n) (c.consolidate.get? n) :=
  Container.rel_consolidate (R := SameContents) (fun _ => rfl) (fun _ => rfl) c n

theorem Series.sameContents_refl (x : Series) : x.SameContents x where
  number_eq := rfl
  description_eq := rfl
  erasing_eq := rfl
  names_eq := rfl
  attributes n := by
    cases x.attributes.get? n with
    | none => exact .none
    | some a => exact .some rfl

theorem Series.sameContents_freeze (x : Series) : x.SameContents (freeze x) where
  number_eq := rfl
  description_eq := rfl
  erasing_eq := rfl
  names_eq := by
    have hcommits := Container.commits_consolidate x.attributes
    change x.attributes.consolidate.view.byName = x.attributes.view.byName
    rw [Container.view_consolidate, hcommits.byName_eq]
  attributes := Attribute.sameContents_consolidate x.attributes

theorem Series.sameContents_consolidate (c : Container Series) (n : UInt32) :
    Option.Rel SameContents (c.get? n) (c.consolidate.get? n) :=
  Container.rel_consolidate sameContents_refl sameContents_freeze c n

/-- The changes of every container are a transaction. However it has come about, what it consolidates is
frozen: components of any kind, attributes, and series with the attributes in them; and nothing else about
attributes and series changes by that. -/
theorem containers_transactional :
    (∀ (T : Type) [Component T] [LawfulComponent T] (c : Container T), c.Transactional ∧
      (c.Arises (fun _ => True) → ∀ x ∈ c.consolidate.components, ∃ y, x = freeze y)) ∧
    (∀ c : Container Attribute,
      (∀ n, Option.Rel Attribute.SameContents (c.get? n) (c.consolidate.get? n)) ∧
      (c.Arises (fun _ => True) → ∀ a ∈ c.consolidate.components, a.editable = false)) ∧
    ∀ c : Container Series,
      (∀ n, Option.Rel Series.SameContents (c.get? n) (c.consolidate.get? n)) ∧
      (c.Arises Series.Arises → ∀ x ∈ c.consolidate.components, x.Frozen) := by
  refine ⟨fun T _ _ c => ⟨c.transactional, fun h => h.exists_freeze⟩, fun c => ⟨?_, fun h a ha => ?_⟩,
    fun c => ⟨Series.sameContents_consolidate c, fun h => h.forall_mem_frozen⟩⟩
  · exact Attribute.sameContents_consolidate c
  · obtain ⟨b, rfl⟩ := h.exists_freeze a ha
    rfl

/-- Two series that have got their names, consolidated. -/
def namedPair : Container Series :=
  Container.consolidate <| Container.run {} [.add { number := 1 }, .add { number := 2 },
    Container.renameTo 1 "a", Container.renameTo 2 "b"]

theorem brings_renameTo (n : UInt32) (name : String) : (Container.renameTo n name).Brings Series.Arises := by
  intro x u y hy hx
  obtain ⟨-, rfl⟩ := Outcome.commit_eq_ok_iff.1 hy
  exact .served hx (.setStructural Builtin.seriesName name)

theorem containers_transactional_sample :
    (∀ a, (namedPair.editComponent 2 fun x => (x.setName "a").commit).result ≠ .ok (some a)) ∧
    namedPair.Unchanged (namedPair.editComponent 2 fun x => (x.setName "a").commit).state ∧
    (namedPair.run [Container.renameTo 1 "c", .delete 2, .erase 3]).rollback = namedPair ∧
    ((namedPair.serve (Container.renameTo 1 "c")).consolidate.find? (.name "c")).isSome = true ∧
    ∀ x ∈ (namedPair.serve (Container.renameTo 1 "c")).consolidate.components, x.Frozen := by
  obtain ⟨htransactional, -, hseries⟩ := containers_transactional
  have hpair : namedPair.Arises Series.Arises := by
    have hnew : ∀ n, (Container.Request.add ({ number := n } : Series)).Brings Series.Arises :=
      fun n => Series.passes_arises.thaw _ (.new n)
    have hadded := Container.Arises.served (.served .empty (hnew 1)) (hnew 2)
    have hnamed := Container.Arises.served (.served hadded (brings_renameTo 1 "a")) (brings_renameTo 2 "b")
    exact .served hnamed (r := .consolidate) trivial
  have hrefused : ∀ a, (namedPair.editComponent 2 fun x => (x.setName "a").commit).result ≠ .ok (some a) := by
    have hresult : (namedPair.editComponent 2 fun x => (x.setName "a").commit).result.toOption = none := by
      decide +kernel
    intro a ha
    rw [ha] at hresult
    cases hresult
  have hpairs := (htransactional Series namedPair).1
  refine ⟨hrefused, hpairs.edit_refused 2 _ hrefused, ?_, by decide +kernel, ?_⟩
  · refine hpairs.rolled_back_initial (Container.buffer_consolidate _) _ ?_
    simp [Container.renameTo]
  · exact (hseries _).2 (.served hpair (brings_renameTo 1 "c"))

end ChronicleMeta
