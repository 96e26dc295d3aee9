import ChronicleMeta.Proofs.Container.Invariant

/-!
What holds of every component of a container: one property of those that are committed, and a weaker
one of those that are being changed. Components pass from the one to the other when the edit buffer
is opened and when it is consolidated.
-/

namespace ChronicleMeta

open Component

variable {T : Type}

namespace Index

variable {P : T → Prop} {ix ix' : Index T}

/-- Every component has the property. -/
def All (P : T → Prop) (ix : Index T) : Prop := ∀ n x, ix.byNumber.get? n = some x → P x

theorem all_empty : All P ({} : Index T) := by simp [All]

theorem All.map {Q : T → Prop} {f : T → T} (h : ix.All P) (hf : ∀ x, P x → Q (f x)) :
    (ix.map f).All Q := by
  intro n y hy
  rw [Index.map, SortedMap.get?_mapValues] at hy
  obtain ⟨x, hx, rfl⟩ := Option.map_eq_some_iff.1 hy
  exact hf x (h n x hx)

variable [Component T]

theorem All.insert (h : ix.All P) {x : T} (hx : P x) (hins : ix.insert x = .ok (some ix')) :
    ix'.All P := by
  obtain ⟨-, hnum, -⟩ := insert_eq_ok hins
  intro n y hy
  rw [hnum, SortedMap.get?_insert] at hy
  split_ifs at hy
  · exact Option.some.inj hy ▸ hx
  · exact h n y hy

theorem All.remove (h : ix.All P) (n : UInt32) : (ix.remove n).All P := by
  intro k y hy
  rw [get?_remove] at hy
  split_ifs at hy
  exact h k y hy

theorem All.modify {α : Type} (h : ix.All P) {n : UInt32} {f : T → Except Error (α × T)} {a : α}
    (hf : ∀ x a y, P x → f x = .ok (a, y) → P y) (hmod : ix.modify n f = .ok (some (a, ix'))) :
    ix'.All P := by
  obtain ⟨x, y, hx, hy, -, hnum⟩ := modify_eq_ok hmod
  have hpy : P y := hf x a y (h n x hx) hy
  intro k z hz
  rw [hnum, SortedMap.get?_insert] at hz
  split_ifs at hz
  · exact Option.some.inj hz ▸ hpy
  · exact h k z hz

end Index

namespace Container

/-- The committed components have the first property, and those of the edit buffer, or those it
would be opened with, the second. -/
structure Sealed [Component T] (P Q : T → Prop) (c : Container T) : Prop where
  committed : c.committed.All P
  draft : c.draft.All Q

/-- Components with the first property get the second when they are made editable and the first back
when they are frozen, and a removal has the second. -/
structure Passes [Component T] (P Q : T → Prop) : Prop where
  erasing : ∀ n, Q (erasing n)
  thaw : ∀ x, P x → Q (setEditable true x)
  freeze : ∀ x, Q x → P (freeze x)

variable [Component T] {P Q : T → Prop} {c : Container T}

theorem sealed_empty : Sealed P Q ({} : Container T) where
  committed := Index.all_empty
  draft := by simp [draft, Index.All, Index.map]

theorem sealed_iff : c.Sealed P Q ↔ c.Meets (Index.All P) (Index.All Q) :=
  ⟨fun h => ⟨h.committed, h.draft⟩, fun h => ⟨h.committed, h.draft⟩⟩

theorem invariant_all (hpass : Passes P Q) :
    Index.Invariant (Index.All P) (Index.All Q) Q fun x y => Q x → Q y where
  empty := Index.all_empty
  thaw _ h := h.map hpass.thaw
  freeze _ h := h.map hpass.freeze
  erasing := hpass.erasing
  insert _ _ _ h hx hins := h.insert hx hins
  remove _ n h := h.remove n
  modify _ _ _ _ _ _ h hf hmod := h.modify (fun x a y hx hy => hf x a y hy hx) hmod

/-- Whether a request brings in only components with the property, and leaves those that it changes with
it. -/
def Request.Brings (Q : T → Prop) (r : Request T) : Prop := r.Respects Q fun x y => Q x → Q y

theorem Sealed.serve (h : c.Sealed P Q) (hpass : Passes P Q) {r : Request T} (hr : r.Brings Q) :
    (c.serve r).Sealed P Q :=
  sealed_iff.2 (Meets.serve (invariant_all hpass) (sealed_iff.1 h) hr)

theorem Sealed.editComponent {α : Type} (h : c.Sealed P Q) (hpass : Passes P Q) (n : UInt32)
    {f : T → Except Error (α × T)} (hf : ∀ x a y, Q x → f x = .ok (a, y) → Q y) :
    (c.editComponent n f).state.Sealed P Q :=
  h.serve hpass (r := .editComponent n f) fun x a y hy hx => hf x a y hx hy

theorem Sealed.consolidate (h : c.Sealed P Q) (hpass : Passes P Q) : c.consolidate.Sealed P Q :=
  h.serve hpass (r := .consolidate) trivial

/-- A container built anew of components that have the second property where they may be changed. -/
theorem sealed_of_rebuild {σ : Type} {f : T → StateT σ (Except Error) T} {c' : Container T}
    {s s' : σ} (hpass : Passes P Q) (hbuild : (c.rebuild f).run s = .ok (c', s'))
    (hf : ∀ x ∈ c.components, ∀ y s s', (f x).run s = .ok (y, s') → Q (setEditable true y)) :
    c'.Sealed P Q :=
  sealed_iff.2 (meets_of_rebuild (invariant_all hpass) hf hbuild)

omit [Component T] in
/-- Without an edit buffer the components are the committed ones. -/
theorem forall_mem_components (hb : c.buffer = none) (h : c.committed.All P) :
    ∀ x ∈ c.components, P x := by
  intro x hx
  rw [components, view, hb] at hx
  obtain ⟨n, hn⟩ := SortedMap.mem_values_iff.1 hx
  exact h n x hn

/-- What both properties imply is true of all components, committed or not. -/
theorem Sealed.forall_mem_components (h : c.Sealed P Q) {R : T → Prop} (hP : ∀ x, P x → R x)
    (hQ : ∀ x, Q x → R x) : ∀ x ∈ c.components, R x := by
  intro x hx
  cases hb : c.buffer with
  | none => exact hP x (Container.forall_mem_components hb h.committed x hx)
  | some ix =>
    rw [components, view, hb] at hx
    obtain ⟨n, hn⟩ := SortedMap.mem_values_iff.1 hx
    exact hQ x (h.draft n x (draft_of_buffer hb ▸ hn))

end Container

end ChronicleMeta
