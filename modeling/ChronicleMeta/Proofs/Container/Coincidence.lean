import ChronicleMeta.Proofs.Container.Alike

/-!
Containers that coincide: they have the same committed state, and their edit buffers are alike once
both are open. What is asked of them is answered alike, and leaves containers that coincide.
-/

namespace ChronicleMeta

open Component

/-- Both give the same or fail with the same error, and the states they leave are related. -/
structure Outcome.Parallel {ε σ τ α : Type} (S : σ → τ → Prop) (r : Outcome ε σ α)
    (s : Outcome ε τ α) : Prop where
  result_eq : r.result = s.result
  state : S r.state s.state

namespace Outcome.Parallel

variable {ε σ τ σ' τ' α β : Type} {S : σ → τ → Prop} {S' : σ' → τ' → Prop} {r : Outcome ε σ α}
  {s : Outcome ε τ α}

theorem map (h : Parallel S r s) (f : α → β) : Parallel S (r.map f) (s.map f) :=
  ⟨congrArg (Except.map f) h.result_eq, h.state⟩

theorem inState (h : Parallel S r s) {f : σ → σ'} {g : τ → τ'} (hfg : ∀ x y, S x y → S' (f x) (g y)) :
    Parallel S' (r.inState f) (s.inState g) :=
  ⟨h.result_eq, hfg _ _ h.state⟩

theorem andThen (h : Parallel S r s) {f : α → σ → Outcome ε σ β} {g : α → τ → Outcome ε τ β}
    (hfg : ∀ a x y, S x y → Parallel S (f a x) (g a y)) : Parallel S (r.andThen f) (s.andThen g) := by
  obtain ⟨hresult, hstate⟩ := h
  unfold Outcome.andThen
  rw [hresult]
  cases s.result with
  | ok a => exact hfg a _ _ hstate
  | error e => exact ⟨rfl, hstate⟩

theorem require {r : Outcome ε σ (Option α)} {s : Outcome ε τ (Option α)} (h : Parallel S r s)
    (e : ε) : Parallel S (Outcome.require e r) (Outcome.require e s) := by
  refine ⟨?_, h.state⟩
  unfold Outcome.require
  rw [h.result_eq]

theorem commit (h : Parallel S r s) :
    Together (fun p q => p.1 = q.1 ∧ S p.2 q.2) r.commit s.commit := by
  obtain ⟨hresult, hstate⟩ := h
  unfold Outcome.commit
  rw [hresult]
  cases s.result with
  | ok a => exact .ok ⟨rfl, hstate⟩
  | error e => exact .error e

end Outcome.Parallel

variable {T : Type} {R S : T → T → Prop}

theorem SortedMap.forall₂_values {κ α β : Type} [Ord κ] [Std.TransOrd κ] [Std.LawfulEqOrd κ]
    {R : α → β → Prop} {m : SortedMap κ α} {n : SortedMap κ β}
    (h : ∀ k, Option.Rel R (m.get? k) (n.get? k)) : List.Forall₂ R m.values n.values := by
  -- Both maps are parts of one, in which the values of a key are side by side.
  let both : SortedMap κ (α × Option β) := m.mapValues fun k a => (a, n.get? k)
  have hleft : m.values = both.values.map Prod.fst := by
    simp [both, values, mapValues, Function.comp_def]
  have hright : n.values.map some = both.values.map Prod.snd := by
    rw [← values_mapValues, ← values_mapValues]
    refine congrArg values (ext_get? fun k => ?_)
    have hk := h k
    simp only [both, get?_mapValues, Option.map_map]
    generalize m.get? k = a at hk ⊢
    generalize n.get? k = b at hk ⊢
    cases hk <;> rfl
  have hpairs : ∀ p ∈ both.values, ∃ b, p.2 = some b ∧ R p.1 b := by
    intro p hp
    obtain ⟨k, hk⟩ := mem_values_iff.1 hp
    rw [get?_mapValues] at hk
    obtain ⟨a, ha, rfl⟩ := Option.map_eq_some_iff.1 hk
    have hrel := h k
    rw [ha] at hrel
    generalize hb : n.get? k = b at hrel
    cases hrel with
    | some hab => exact ⟨_, rfl, hab⟩
  have hzip : List.Forall₂ (fun a o => ∃ b, o = some b ∧ R a b) m.values (n.values.map some) := by
    rw [hleft, hright, List.forall₂_map_left_iff, List.forall₂_map_right_iff, List.forall₂_same]
    exact hpairs
  rw [List.forall₂_map_right_iff] at hzip
  refine hzip.imp fun a b hab => ?_
  obtain ⟨b', hb', hR⟩ := hab
  exact Option.some.inj hb' ▸ hR

section Rel

variable {a b c : Option T}

theorem rel_refl (hR : ∀ x, R x x) (a : Option T) : Option.Rel R a a := by
  cases a with
  | none => exact .none
  | some x => exact .some (hR x)

theorem rel_imp (h : Option.Rel R a b) (hRS : ∀ x y, R x y → S x y) : Option.Rel S a b := by
  cases h with
  | none => exact .none
  | some h => exact .some (hRS _ _ h)

theorem rel_symm (h : Option.Rel R a b) (hR : ∀ x y, R x y → R y x) : Option.Rel R b a := by
  cases h with
  | none => exact .none
  | some h => exact .some (hR _ _ h)

theorem rel_trans (h : Option.Rel R a b) (h' : Option.Rel R b c)
    (hR : ∀ x y z, R x y → R y z → R x z) : Option.Rel R a c := by
  cases h with
  | none => exact h'
  | some h =>
    cases h' with
    | some h' => exact .some (hR _ _ _ h h')

end Rel

namespace Index

variable {ix iy iz : Index T}

theorem alike_refl (hR : ∀ x, R x x) (ix : Index T) : ix.Alike R ix :=
  ⟨rfl, fun n => rel_refl hR (ix.byNumber.get? n)⟩

theorem alike_map {f : T → T} (hf : ∀ x, R x (f x)) (ix : Index T) : ix.Alike R (ix.map f) where
  byName_eq := rfl
  slots n := by
    rw [map, SortedMap.get?_mapValues]
    cases ix.byNumber.get? n with
    | none => exact .none
    | some x => exact .some (hf x)

theorem Alike.mono (h : ix.Alike R iy) (hRS : ∀ x y, R x y → S x y) : ix.Alike S iy :=
  ⟨h.byName_eq, fun n => rel_imp (h.slots n) hRS⟩

theorem Alike.symm (h : ix.Alike R iy) (hR : ∀ x y, R x y → R y x) : iy.Alike R ix :=
  ⟨h.byName_eq.symm, fun n => rel_symm (h.slots n) hR⟩

theorem Alike.trans (h : ix.Alike R iy) (h' : iy.Alike R iz)
    (hR : ∀ x y z, R x y → R y z → R x z) : ix.Alike R iz :=
  ⟨h.byName_eq.trans h'.byName_eq, fun n => rel_trans (h.slots n) (h'.slots n) hR⟩

/-- Look-ups by number and by name give related components. -/
theorem Alike.find? (h : ix.Alike R iy) (key : DefinitionKey) :
    Option.Rel R (ix.find? key) (iy.find? key) := by
  cases key with
  | number n => exact h.slots n
  | name s =>
    show Option.Rel R ((ix.byName.get? s).bind ix.byNumber.get?)
      ((iy.byName.get? s).bind iy.byNumber.get?)
    rw [h.byName_eq]
    cases iy.byName.get? s with
    | none => exact .none
    | some n => exact h.slots n

end Index

namespace Container

variable [Component T] {c d : Container T} {n : UInt32}

/-- Both have the same committed state, and edit buffers, open or to be opened, that are alike. -/
structure Coincides (R : T → T → Prop) (c d : Container T) : Prop where
  committed_eq : c.committed = d.committed
  draft : c.draft.Alike R d.draft

theorem coincides_refl (hR : ∀ x, R x x) (c : Container T) : c.Coincides R c :=
  ⟨rfl, Index.alike_refl hR c.draft⟩

theorem coincides_edit (hR : ∀ x, R x x) (c : Container T) : c.Coincides R c.edit :=
  ⟨rfl, Index.alike_refl hR c.draft⟩

theorem Coincides.edit (h : c.Coincides R d) : c.edit.Coincides R d.edit :=
  ⟨h.committed_eq, h.draft⟩

theorem Coincides.withDraft (h : c.Coincides R d) {ix iy : Index T} (hix : ix.Alike R iy) :
    (c.withDraft ix).Coincides R (d.withDraft iy) :=
  ⟨h.committed_eq, hix⟩

theorem Coincides.contains_eq (h : c.Coincides R d) (n : UInt32) : c.contains n = d.contains n := by
  rw [Bool.eq_iff_iff, ← not_iff_not, Bool.not_eq_true, Bool.not_eq_true, ← get?_draft_eq_none_iff,
    ← get?_draft_eq_none_iff, ← SortedMap.contains_eq_false_iff, ← SortedMap.contains_eq_false_iff,
    h.draft.contains_eq]

theorem Coincides.delete (h : c.Coincides R d) (hname : ∀ x y, R x y → name? x = name? y)
    (n : UInt32) : (c.delete n).Coincides R (d.delete n) := by
  unfold Container.delete
  rw [h.contains_eq]
  split_ifs
  · exact h.withDraft (h.draft.remove hname n)
  · exact h

theorem Coincides.add (h : c.Coincides R d) (hR : ∀ x, R x x) (x : T) :
    (c.add x).Parallel (Coincides R) (d.add x) := by
  have hinsert := h.draft.insert (hR (setEditable true x))
  unfold Container.add
  generalize c.draft.insert (setEditable true x) = r at hinsert ⊢
  generalize d.draft.insert (setEditable true x) = s at hinsert ⊢
  cases hinsert with
  | error e => exact ⟨rfl, h.edit⟩
  | ok hrel =>
    cases hrel with
    | none => exact ⟨rfl, h.edit⟩
    | some hix => exact ⟨rfl, h.withDraft hix⟩

theorem Coincides.erase (h : c.Coincides R d) (hR : ∀ x, R x x)
    (hname : ∀ x y, R x y → name? x = name? y) (n : UInt32) :
    (c.erase n).Parallel (Coincides R) (d.erase n) := by
  have hremove := h.draft.remove hname n
  have hinsert := hremove.insert (hR (erasing n))
  unfold Container.erase
  dsimp only
  generalize (c.draft.remove n).insert (erasing n) = r at hinsert ⊢
  generalize (d.draft.remove n).insert (erasing n) = s at hinsert ⊢
  cases hinsert with
  | error e => exact ⟨rfl, h.withDraft hremove⟩
  | ok hrel =>
    cases hrel with
    | none => exact ⟨rfl, h.withDraft hremove⟩
    | some hix => exact ⟨rfl, h.withDraft hix⟩

theorem Coincides.editComponent {α : Type} (h : c.Coincides R d)
    (hname : ∀ x y, R x y → name? x = name? y) {f g : T → Except Error (α × T)}
    (hfg : ∀ x y, R x y → Together (fun p q => p.1 = q.1 ∧ R p.2 q.2) (f x) (g y)) (n : UInt32) :
    (c.editComponent n f).Parallel (Coincides R) (d.editComponent n g) := by
  have hmodify := h.draft.modify hname hfg n
  unfold Container.editComponent
  generalize c.draft.modify n f = r at hmodify ⊢
  generalize d.draft.modify n g = s at hmodify ⊢
  cases hmodify with
  | error e => exact ⟨rfl, h.edit⟩
  | ok hrel =>
    cases hrel with
    | none => exact ⟨rfl, h.edit⟩
    | some hix =>
      obtain ⟨hanswer, hix⟩ := hix
      exact ⟨congrArg (fun a => Except.ok (some a)) hanswer, h.withDraft hix⟩

/-- An addition that does not take place opens the edit buffer at most. -/
theorem coincides_add (hR : ∀ x, R x x) {x : T} (h : (c.add x).result ≠ .ok true) :
    c.Coincides R (c.add x).state := by
  unfold Container.add at h ⊢
  split at h
  next => exact coincides_edit hR c
  next => exact coincides_edit hR c
  next => exact absurd rfl h

/-- So does a change of a component that does not take place, or makes of it what is related. -/
theorem coincides_editComponent {α : Type} (hR : ∀ x, R x x)
    (hname : ∀ x y, R x y → name? x = name? y) {f : T → Except Error (α × T)}
    (h : ∀ a, (c.editComponent n f).result = .ok (some a) → ∀ x y, f x = .ok (a, y) → R x y) :
    c.Coincides R (c.editComponent n f).state := by
  unfold Container.editComponent at h ⊢
  split at h
  next => exact coincides_edit hR c
  next => exact coincides_edit hR c
  next a ix hmod =>
    obtain ⟨x, y, hx, hy, hren, hnum⟩ := Index.modify_eq_ok hmod
    have hxy : R x y := h a rfl x y hy
    refine ⟨rfl, ?_, fun k => ?_⟩
    · unfold Index.rename at hren
      rw [if_pos (hname x y hxy).symm] at hren
      exact Except.ok.inj hren
    · show Option.Rel R (c.draft.byNumber.get? k) (ix.byNumber.get? k)
      rw [hnum, SortedMap.get?_insert]
      split_ifs with hk
      · rw [hk, hx]
        exact .some hxy
      · exact (Index.alike_refl hR c.draft).slots k

/-- Components that are the same but for being open for changes are seen in both. -/
theorem Coincides.view (h : c.Coincides R d) (hS : Equivalence S) (hRS : ∀ x y, R x y → S x y)
    (hthaw : ∀ x, S x (setEditable true x)) : c.view.Alike S d.view := by
  have hdraft : ∀ c : Container T, c.view.Alike S c.draft := by
    intro c
    unfold Container.view Container.draft
    cases c.buffer with
    | none => exact Index.alike_map hthaw c.committed
    | some ix => exact Index.alike_refl hS.refl ix
  have htrans : ∀ x y z, S x y → S y z → S x z := fun _ _ _ => hS.trans
  have hleft : c.view.Alike S d.draft := (hdraft c).trans (h.draft.mono hRS) htrans
  exact hleft.trans ((hdraft d).symm fun _ _ => hS.symm) htrans

end Container

end ChronicleMeta
