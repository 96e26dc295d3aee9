import ChronicleMeta.Proofs.Container.Rebuild
import ChronicleMeta.Proofs.Container.Request

/-!
What is true of the two states of a container whatever is asked of it. That an operation keeps it is said
of indices, and follows for containers and for sequences of requests.
-/

namespace ChronicleMeta

open Component

variable {T : Type} [Component T]

/-- The first property, of committed states, and the second, of edit buffers, go over into each other when
a buffer is opened and consolidated. The second is kept where components are brought in that are admitted,
and where one is changed as it may be. -/
structure Index.Invariant (C D : Index T → Prop) (A : T → Prop) (R : T → T → Prop) : Prop where
  empty : C {}
  thaw : ∀ ix, C ix → D (ix.map (setEditable true))
  freeze : ∀ ix, D ix → C (ix.map Component.freeze)
  erasing : ∀ n, A (erasing n)
  insert : ∀ ix ix' x, D ix → A x → ix.insert x = .ok (some ix') → D ix'
  remove : ∀ ix n, D ix → D (ix.remove n)
  modify : ∀ (α : Type) ix ix' n (f : T → Except Error (α × T)) a, D ix →
    (∀ x b y, f x = .ok (b, y) → R x y) → ix.modify n f = .ok (some (a, ix')) → D ix'

namespace Container

/-- Whether components that the request brings in are admitted, and those it changes are changed as they
may be. -/
def Request.Respects (A : T → Prop) (R : T → T → Prop) : Request T → Prop
  | .add x => A (setEditable true x)
  | .editComponent _ f => ∀ x a y, f x = .ok (a, y) → R x y
  | .layLevel empty merge _ => (∀ n, A (setEditable true (empty n))) ∧ ∀ x d y, merge x d = .ok y → R x y
  | _ => True

/-- The committed state has the first property and the edit buffer, or what it would be opened with, the
second. -/
structure Meets (C D : Index T → Prop) (c : Container T) : Prop where
  committed : C c.committed
  draft : D c.draft

section

variable {C D : Index T → Prop} {A : T → Prop} {R : T → T → Prop} {c : Container T}

theorem Meets.withDraft (h : c.Meets C D) {ix : Index T} (hix : D ix) : (c.withDraft ix).Meets C D :=
  ⟨h.committed, hix⟩

theorem Meets.edit (h : c.Meets C D) : c.edit.Meets C D := ⟨h.committed, h.draft⟩

variable (hinv : Index.Invariant C D A R)

include hinv

theorem meets_of_buffer_eq_none (hb : c.buffer = none) (h : C c.committed) : c.Meets C D where
  committed := h
  draft := by
    rw [Container.draft, hb]
    exact hinv.thaw _ h

theorem meets_empty : Meets C D ({} : Container T) := meets_of_buffer_eq_none hinv rfl hinv.empty

theorem Meets.add (h : c.Meets C D) {x : T} (hx : A (setEditable true x)) : (c.add x).state.Meets C D := by
  unfold Container.add
  split
  next => exact h.edit
  next => exact h.edit
  next ix hins => exact h.withDraft (hinv.insert _ ix _ h.draft hx hins)

theorem Meets.delete (h : c.Meets C D) (n : UInt32) : (c.delete n).Meets C D := by
  unfold Container.delete
  split_ifs
  · exact h.withDraft (hinv.remove _ n h.draft)
  · exact h

theorem Meets.erase (h : c.Meets C D) (n : UInt32) : (c.erase n).state.Meets C D := by
  have hrest : D (c.draft.remove n) := hinv.remove _ n h.draft
  unfold Container.erase
  dsimp only
  split
  next => exact h.withDraft hrest
  next => exact h.withDraft hrest
  next ix hins => exact h.withDraft (hinv.insert _ ix _ hrest (hinv.erasing n) hins)

theorem Meets.editComponent (h : c.Meets C D) {α : Type} (n : UInt32) {f : T → Except Error (α × T)}
    (hf : ∀ x a y, f x = .ok (a, y) → R x y) : (c.editComponent n f).state.Meets C D := by
  unfold Container.editComponent
  split
  next => exact h.edit
  next => exact h.edit
  next a ix hmod => exact h.withDraft (hinv.modify α _ ix n f a h.draft hf hmod)

theorem Meets.eraseLevel (h : c.Meets C D) (level : Container T) : (c.eraseLevel level).Meets C D := by
  unfold Container.eraseLevel
  induction level.components.filter isErasing generalizing c with
  | nil => exact h
  | cons x l ih => exact ih (h.delete hinv (number x))

theorem Meets.layDefinition (h : c.Meets C D) {empty : UInt32 → T} {merge : T → T → Except Error T}
    (hempty : ∀ n, A (setEditable true (empty n))) (hmerge : ∀ x d y, merge x d = .ok y → R x y) (x : T) :
    (c.layDefinition empty merge x).state.Meets C D := by
  have hadd := h.add hinv (hempty (number x))
  unfold Container.layDefinition Outcome.andThen
  split
  next =>
    refine hadd.editComponent hinv (number x) fun y a z hz => ?_
    obtain ⟨w, hw, he⟩ := map_eq_ok_iff.1 hz
    cases he
    exact hmerge y x _ hw
  next => exact hadd

theorem Meets.layLevel (h : c.Meets C D) {empty : UInt32 → T} {merge : T → T → Except Error T}
    (hempty : ∀ n, A (setEditable true (empty n))) (hmerge : ∀ x d y, merge x d = .ok y → R x y)
    (level : Container T) : (c.layLevel empty merge level).state.Meets C D := by
  have hc := h.eraseLevel hinv level
  clear h
  unfold Container.layLevel
  generalize c.eraseLevel level = c at hc
  induction level.components.filter (!isErasing ·) generalizing c with
  | nil => exact hc
  | cons x l ih =>
    have hx := hc.layDefinition hinv hempty hmerge x
    unfold layDefinitions Outcome.andThen
    split
    next => exact ih _ hx
    next => exact hx

theorem Meets.consolidate (h : c.Meets C D) : c.consolidate.Meets C D := by
  refine meets_of_buffer_eq_none hinv (buffer_consolidate c) ?_
  cases hb : c.buffer with
  | none =>
    rw [consolidate_eq_self hb]
    exact h.committed
  | some ix =>
    rw [Container.consolidate, hb]
    exact hinv.freeze ix (draft_of_buffer hb ▸ h.draft)

theorem Meets.rollback (h : c.Meets C D) : c.rollback.Meets C D :=
  meets_of_buffer_eq_none hinv rfl h.committed

theorem Meets.serve (h : c.Meets C D) {r : Request T} (hr : r.Respects A R) : (c.serve r).Meets C D := by
  cases r with
  | add x => exact h.add hinv hr
  | delete n => exact h.delete hinv n
  | erase n => exact h.erase hinv n
  | edit => exact h.edit
  | editComponent n f => exact h.editComponent hinv n hr
  | layLevel empty merge level => exact h.layLevel hinv hr.1 hr.2 level
  | consolidate => exact h.consolidate hinv
  | rollback => exact h.rollback hinv

theorem Meets.run (h : c.Meets C D) {rs : List (Request T)} (hrs : ∀ r ∈ rs, r.Respects A R) :
    (c.run rs).Meets C D :=
  run_invariant (fun _ _ h hr => h.serve hinv hr) h hrs

theorem Meets.addAll (h : c.Meets C D) {l : List T} (hl : ∀ x ∈ l, A (setEditable true x))
    {c' : Container T} (hall : c.addAll l = .ok c') : c'.Meets C D := by
  induction l generalizing c with
  | nil =>
    obtain rfl : c = c' := Except.ok.inj hall
    exact h
  | cons x l ih =>
    obtain ⟨added, c₁, hadd, hall⟩ := addAll_cons_eq_ok_iff.1 hall
    obtain ⟨hx, hl⟩ := List.forall_mem_cons.1 hl
    obtain ⟨-, rfl⟩ := Outcome.commit_eq_ok_iff.1 hadd
    exact ih (h.add hinv hx) hl hall

/-- A container built anew, where what its components become is admitted. -/
theorem meets_of_rebuild {σ : Type} {f : T → StateT σ (Except Error) T} {c' : Container T} {s s' : σ}
    (hf : ∀ x ∈ c.components, ∀ y s s', (f x).run s = .ok (y, s') → A (setEditable true y))
    (h : (c.rebuild f).run s = .ok (c', s')) : c'.Meets C D := by
  obtain ⟨l, r, hl, hall, rfl⟩ := rebuild_eq_ok_iff.1 h
  have hadmitted : ∀ y ∈ l, A (setEditable true y) := by
    intro y hy
    obtain ⟨x, hx, s₁, s₂, hstep⟩ := exists_of_mem_mapM_eq_ok hl hy
    exact hf x hx y s₁ s₂ hstep
  exact ((meets_empty hinv).addAll hinv hadmitted hall).consolidate hinv

end

/-- What is true of both states is true of the one in view. -/
theorem Meets.view {C : Index T → Prop} {c : Container T} (h : c.Meets C C) : C c.view := by
  rw [Container.view]
  cases hb : c.buffer with
  | none => exact h.committed
  | some ix => exact draft_of_buffer hb ▸ h.draft

end Container

end ChronicleMeta
