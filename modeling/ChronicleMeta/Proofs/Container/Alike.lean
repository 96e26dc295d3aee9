import ChronicleMeta.Container.Basic
import ChronicleMeta.Proofs.Container.Draft
import Mathlib.Data.List.Forall2
import Mathlib.Data.Option.Basic

/-!
Levels laid over containers that are alike. A level can tell edit buffers apart only by the numbers,
the names and what merging makes of their components, and it counts itself only by the definitions in
it. So levels with the same definitions do the same to containers that are alike, errors included.
-/

namespace ChronicleMeta

/-- Both fail with the same error, or both succeed and the results are related. -/
inductive Together {ε α β : Type} (R : α → β → Prop) : Except ε α → Except ε β → Prop
  | ok {a : α} {b : β} (h : R a b) : Together R (.ok a) (.ok b)
  | error (e : ε) : Together R (.error e) (.error e)

namespace Together

variable {ε α β α' β' γ δ : Type} {R : α → β → Prop} {S : α' → β' → Prop} {x : Except ε α}
  {y : Except ε β}

theorem bind {f : α → Except ε α'} {g : β → Except ε β'} (h : Together R x y)
    (hfg : ∀ a b, R a b → Together S (f a) (g b)) : Together S (x >>= f) (y >>= g) := by
  cases h with
  | ok h => exact hfg _ _ h
  | error e => exact .error e

theorem map {f : α → α'} {g : β → β'} (h : Together R x y) (hfg : ∀ a b, R a b → S (f a) (g b)) :
    Together S (x.map f) (y.map g) := by
  cases h with
  | ok h => exact .ok (hfg _ _ h)
  | error e => exact .error e

theorem foldlM {P : γ → δ → Prop} {f : α → γ → Except ε α} {g : β → δ → Except ε β} {l : List γ}
    {l' : List δ} (hl : List.Forall₂ P l l')
    (hfg : ∀ a b c d, R a b → P c d → Together R (f a c) (g b d)) {a : α} {b : β} (h : R a b) :
    Together R (l.foldlM f a) (l'.foldlM g b) := by
  induction hl generalizing a b with
  | nil => exact .ok h
  | cons hcd _ ih =>
    rw [List.foldlM_cons, List.foldlM_cons]
    exact (hfg _ _ _ _ h hcd).bind fun _ _ => ih

theorem eq {y : Except ε α} (h : Together Eq x y) : x = y := by
  cases h with
  | ok h => rw [h]
  | error e => rfl

end Together

open Component

variable {T : Type} {R : T → T → Prop}

namespace Index

/-- Both have the same names, and related components under the same numbers. -/
structure Alike (R : T → T → Prop) (ix iy : Index T) : Prop where
  byName_eq : ix.byName = iy.byName
  slots : ∀ n, Option.Rel R (ix.byNumber.get? n) (iy.byNumber.get? n)

variable {ix iy : Index T}

theorem alike_empty : Alike R ({} : Index T) {} where
  byName_eq := rfl
  slots _ := .none

private theorem rel_insert {mx my : SortedMap UInt32 T} {n : UInt32} {x y : T}
    (h : ∀ k, Option.Rel R (mx.get? k) (my.get? k)) (hxy : R x y) (k : UInt32) :
    Option.Rel R ((mx.insert n x).get? k) ((my.insert n y).get? k) := by
  rw [SortedMap.get?_insert, SortedMap.get?_insert]
  split_ifs
  · exact .some hxy
  · exact h k

theorem Alike.contains_eq (h : ix.Alike R iy) (n : UInt32) :
    ix.byNumber.contains n = iy.byNumber.contains n := by
  have hn := h.slots n
  unfold SortedMap.contains
  generalize ix.byNumber.get? n = x at hn ⊢
  generalize iy.byNumber.get? n = y at hn ⊢
  cases hn <;> rfl

/-- Components that are mapped to the same are not told apart any more. -/
theorem Alike.map_eq {f : T → T} (h : ix.Alike R iy) (hf : ∀ x y, R x y → f x = f y) :
    ix.map f = iy.map f := by
  have hnum : ix.byNumber.mapValues (fun _ => f) = iy.byNumber.mapValues fun _ => f := by
    refine SortedMap.ext_get? fun n => ?_
    have hn := h.slots n
    rw [SortedMap.get?_mapValues, SortedMap.get?_mapValues]
    generalize ix.byNumber.get? n = x at hn ⊢
    generalize iy.byNumber.get? n = y at hn ⊢
    cases hn with
    | none => rfl
    | some hxy => rw [Option.map_some, Option.map_some, hf _ _ hxy]
  rw [Index.map, Index.map, hnum, h.byName_eq]

variable [Component T]

theorem Alike.insert (h : ix.Alike R iy) {x : T} (hx : R x x) :
    Together (Option.Rel (Alike R)) (ix.insert x) (iy.insert x) := by
  have hslots := rel_insert (n := number x) h.slots hx
  unfold Index.insert
  rw [h.contains_eq, h.byName_eq]
  split_ifs
  · exact .ok .none
  · cases name? x with
    | none => exact .ok (.some ⟨rfl, hslots⟩)
    | some name =>
      dsimp only
      cases iy.byName.get? name with
      | none => exact .ok (.some ⟨rfl, hslots⟩)
      | some owner => exact .error _

theorem Alike.remove (h : ix.Alike R iy) (hname : ∀ x y, R x y → name? x = name? y) (n : UInt32) :
    (ix.remove n).Alike R (iy.remove n) where
  byName_eq := by
    have hn := h.slots n
    unfold Index.remove
    generalize ix.byNumber.get? n = x at hn ⊢
    generalize iy.byNumber.get? n = y at hn ⊢
    cases hn with
    | none => exact h.byName_eq
    | some hxy =>
      dsimp only
      rw [hname _ _ hxy, h.byName_eq]
  slots k := by
    rw [get?_remove, get?_remove]
    split_ifs
    · exact .none
    · exact h.slots k

theorem Alike.modify {α : Type} (h : ix.Alike R iy) (hname : ∀ x y, R x y → name? x = name? y)
    {f g : T → Except Error (α × T)}
    (hfg : ∀ x y, R x y → Together (fun p q => p.1 = q.1 ∧ R p.2 q.2) (f x) (g y)) (n : UInt32) :
    Together (Option.Rel fun p q => p.1 = q.1 ∧ p.2.Alike R q.2) (ix.modify n f) (iy.modify n g) := by
  have hn := h.slots n
  have hrename : ∀ old new, ix.rename n old new = iy.rename n old new := fun old new => by
    unfold Index.rename
    rw [h.byName_eq]
  unfold Index.modify
  generalize ix.byNumber.get? n = x at hn ⊢
  generalize iy.byNumber.get? n = y at hn ⊢
  cases hn with
  | none => exact .ok .none
  | @some x y hxy =>
    refine (hfg x y hxy).bind fun p q hpq => ?_
    obtain ⟨hanswer, hpq⟩ := hpq
    dsimp only
    rw [hname x y hxy, hname _ _ hpq, hrename]
    cases iy.rename n (name? y) (name? q.2) with
    | error e => exact .error e
    | ok names => exact .ok (.some ⟨hanswer, rfl, rel_insert h.slots hpq⟩)

end Index

namespace Container

/-- Both have nothing committed, and edit buffers that are alike. -/
structure Alike [Component T] (R : T → T → Prop) (c d : Container T) : Prop where
  committed_left : c.committed = {}
  committed_right : d.committed = {}
  draft : c.draft.Alike R d.draft

/-- Merging treats related components alike, if the definitions merged into them are the same in the
sense of `S`. -/
structure Simulates [Component T] (empty : UInt32 → T) (merge : T → T → Except Error T)
    (R S : T → T → Prop) : Prop where
  empty : ∀ n, R (setEditable true (empty n)) (setEditable true (empty n))
  name?_eq : ∀ x y, R x y → name? x = name? y
  number_eq : ∀ d e, S d e → number d = number e
  isErasing_eq : ∀ d e, S d e → isErasing d = isErasing e
  merge : ∀ x y d e, R x y → S d e → Together R (merge x d) (merge y e)

variable [Component T] {S : T → T → Prop} {empty : UInt32 → T} {merge : T → T → Except Error T}
  {c d level level' : Container T}

theorem alike_empty : Alike R ({} : Container T) {} := ⟨rfl, rfl, Index.alike_empty⟩

theorem Alike.edit (h : c.Alike R d) : c.edit.Alike R d.edit :=
  ⟨h.committed_left, h.committed_right, h.draft⟩

theorem Alike.withDraft (h : c.Alike R d) {ix iy : Index T} (hix : ix.Alike R iy) :
    (c.withDraft ix).Alike R (d.withDraft iy) :=
  ⟨h.committed_left, h.committed_right, hix⟩

theorem Alike.delete (h : c.Alike R d) (hname : ∀ x y, R x y → name? x = name? y) (n : UInt32) :
    (c.delete n).Alike R (d.delete n) := by
  have hcontains : c.contains n = d.contains n := by
    rw [Bool.eq_iff_iff, ← not_iff_not, Bool.not_eq_true, Bool.not_eq_true, ← get?_draft_eq_none_iff,
      ← get?_draft_eq_none_iff, ← SortedMap.contains_eq_false_iff, ← SortedMap.contains_eq_false_iff,
      h.draft.contains_eq]
  unfold Container.delete
  rw [hcontains]
  split_ifs
  · exact h.withDraft (h.draft.remove hname n)
  · exact h

theorem Alike.add (h : c.Alike R d) {x : T} (hx : R (setEditable true x) (setEditable true x)) :
    Together (fun p q => p.2.Alike R q.2) (c.add x).commit (d.add x).commit := by
  have hinsert := h.draft.insert hx
  unfold Container.add
  generalize c.draft.insert (setEditable true x) = r at hinsert ⊢
  generalize d.draft.insert (setEditable true x) = s at hinsert ⊢
  cases hinsert with
  | error e => exact .error e
  | ok hrel =>
    cases hrel with
    | none => exact .ok h.edit
    | some hix => exact .ok (h.withDraft hix)

theorem Alike.editComponent {α : Type} (h : c.Alike R d) (hname : ∀ x y, R x y → name? x = name? y)
    {f g : T → Except Error (α × T)}
    (hfg : ∀ x y, R x y → Together (fun p q => p.1 = q.1 ∧ R p.2 q.2) (f x) (g y)) (n : UInt32) :
    Together (fun p q => p.2.Alike R q.2) (c.editComponent n f).commit (d.editComponent n g).commit := by
  have hmodify := h.draft.modify hname hfg n
  unfold Container.editComponent
  generalize c.draft.modify n f = r at hmodify ⊢
  generalize d.draft.modify n g = s at hmodify ⊢
  cases hmodify with
  | error e => exact .error e
  | ok hrel =>
    cases hrel with
    | none => exact .ok h.edit
    | some hix => exact .ok (h.withDraft hix.2)

theorem Alike.mergeDefinition (hsim : Simulates empty merge R S) (h : c.Alike R d) {x y : T}
    (hxy : S x y) :
    Together (Alike R) (mergeDefinition empty merge c x) (mergeDefinition empty merge d y) := by
  have hnumber := hsim.number_eq x y hxy
  unfold Container.mergeDefinition
  rw [hnumber]
  refine (h.add (hsim.empty (number y))).bind fun p q hpq => ?_
  refine Together.bind (hpq.editComponent hsim.name?_eq (fun v w hvw => ?_) (number y)) fun _ _ => .ok
  exact (hsim.merge v w x y hvw hxy).map fun _ _ hmerged => ⟨rfl, hmerged⟩

/-- A level is laid over containers that are alike with the same result or the same error, and so is
another level with the same definitions. -/
theorem Alike.mergeLevel (hsim : Simulates empty merge R S) (h : c.Alike R d)
    (hlevel : List.Forall₂ S level.components level'.components) :
    Together (Alike R) (mergeLevel empty merge c level) (mergeLevel empty merge d level') := by
  have hremoved : List.Forall₂ S (level.components.filter isErasing)
      (level'.components.filter isErasing) :=
    List.rel_filter (fun x y hxy => by simp only [hsim.isErasing_eq x y hxy]) hlevel
  have hdefined : List.Forall₂ S (level.components.filter (!isErasing ·))
      (level'.components.filter (!isErasing ·)) :=
    List.rel_filter (fun x y hxy => by simp only [hsim.isErasing_eq x y hxy]) hlevel
  have herased : (c.eraseLevel level).Alike R (d.eraseLevel level') := by
    refine List.rel_foldl (P := Alike R) (fun c d hcd x y hxy => ?_) h hremoved
    rw [hsim.number_eq x y hxy]
    exact hcd.delete hsim.name?_eq (number y)
  exact Together.foldlM hdefined (fun _ _ _ _ hcd hxy => hcd.mergeDefinition hsim hxy) herased

theorem Alike.consolidate_eq (h : c.Alike R d) (hfreeze : ∀ x y, R x y → freeze x = freeze y) :
    c.consolidate = d.consolidate := by
  have hcommitted : c.consolidate.committed = d.consolidate.committed := by
    rw [committed_consolidate h.committed_left, committed_consolidate h.committed_right,
      h.draft.map_eq hfreeze]
  have hbuffer : c.consolidate.buffer = d.consolidate.buffer := by
    rw [buffer_consolidate, buffer_consolidate]
  cases hc : c.consolidate
  cases hd : d.consolidate
  simp_all

end Container

end ChronicleMeta
