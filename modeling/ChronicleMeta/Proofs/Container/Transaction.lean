import ChronicleMeta.Proofs.Container.Request

/-!
The changes of a container as a transaction. A request that is refused leaves the components and the names
as they were, one that succeeds changes what is under one number, and all of it can be rolled back until it
is consolidated. That a component may be changed from now on does not count as a change.
-/

namespace ChronicleMeta

open Component

variable {T : Type} [Component T]

namespace Index

variable {ix ix' : Index T} {n : UInt32}

/-- The indexes differ at most in the component of the number, and in where the name leads that it had and
the name that it has. -/
structure Frame (n : UInt32) (ix ix' : Index T) : Prop where
  byNumber : ∀ k, k ≠ n → ix'.byNumber.get? k = ix.byNumber.get? k
  byName : ∀ s, (ix.byNumber.get? n).bind name? ≠ some s → (ix'.byNumber.get? n).bind name? ≠ some s →
    ix'.byName.get? s = ix.byName.get? s

/-- Two changes after one another, where the first has left no component of the number. -/
theorem Frame.trans {ix₁ : Index T} (h₁ : Frame n ix ix₁) (hnone : ix₁.byNumber.get? n = none)
    (h₂ : Frame n ix₁ ix') : Frame n ix ix' where
  byNumber k hk := (h₂.byNumber k hk).trans (h₁.byNumber k hk)
  byName s hold hnew := by
    have hmid : (ix₁.byNumber.get? n).bind name? ≠ some s := by simp [hnone]
    exact (h₂.byName s hmid hnew).trans (h₁.byName s hold hmid)

theorem frame_insert {x : T} (h : ix.insert x = .ok (some ix')) : Frame (number x) ix ix' where
  byNumber k hk := by rw [get?_of_insert h, if_neg hk]
  byName s _ hnew := by
    obtain ⟨-, -, hnames⟩ := insert_eq_ok h
    rw [get?_of_insert h, if_pos rfl, Option.bind_some] at hnew
    obtain ⟨-, hnames⟩ | ⟨name, hname, -, hnames⟩ := hnames
    · rw [hnames]
    · have hs : s ≠ name := fun e => hnew (e ▸ hname)
      rw [hnames, SortedMap.get?_insert, if_neg hs]

theorem frame_remove (ix : Index T) (n : UInt32) : Frame n ix (ix.remove n) where
  byNumber k hk := by rw [get?_remove, if_neg hk]
  byName s hold _ := by
    unfold remove
    split
    next => rfl
    next x hx =>
      rw [hx, Option.bind_some] at hold
      cases hname : name? x with
      | none => rfl
      | some name =>
        have hs : s ≠ name := fun e => hold (e ▸ hname)
        dsimp only
        split_ifs
        · rw [SortedMap.get?_erase, if_neg hs]
        · rfl

theorem frame_modify {α : Type} {f : T → Except Error (α × T)} {a : α}
    (h : ix.modify n f = .ok (some (a, ix'))) : Frame n ix ix' := by
  obtain ⟨x, y, hx, -, hrename, hnum⟩ := modify_eq_ok h
  constructor
  · intro k hk
    rw [hnum, SortedMap.get?_insert, if_neg hk]
  · intro s hold hnew
    rw [hx, Option.bind_some] at hold
    rw [hnum, SortedMap.get?_insert, if_pos rfl, Option.bind_some] at hnew
    by_cases hsame : name? y = name? x
    · unfold rename at hrename
      rw [if_pos hsame, Except.ok.injEq] at hrename
      rw [hrename]
    · rw [(rename_eq_ok hrename hsame).1, if_neg hnew, if_neg hold]

end Index

namespace Container

variable {c c' : Container T} {n : UInt32} {o o' : Option T}

/-- What is there afterwards is what was there before, but that it may be changed now. -/
def Kept (before after : Option T) : Prop := after = before ∨ after = before.map (setEditable true)

/-- Each look-up, by a number or by a name, gives what it gave, and each name leads to the same number. -/
structure Unchanged (c c' : Container T) : Prop where
  find? : ∀ key, Kept (c.find? key) (c'.find? key)
  byName_eq : c'.view.byName = c.view.byName

/-- What is seen of the containers differs at most in the component of the number, and in where the name
leads that it had and the name that it has. -/
structure Frame (n : UInt32) (c c' : Container T) : Prop where
  get? : ∀ k, k ≠ n → Kept (c.get? k) (c'.get? k)
  byName : ∀ s, (c.get? n).bind name? ≠ some s → (c'.get? n).bind name? ≠ some s →
    c'.view.byName.get? s = c.view.byName.get? s

theorem byName_draft (c : Container T) : c.draft.byName = c.view.byName := by
  unfold draft view
  cases c.buffer <;> rfl

theorem kept_draft (c : Container T) (n : UInt32) : Kept (c.get? n) (c.draft.byNumber.get? n) := by
  unfold get? draft view
  cases c.buffer with
  | none => exact .inr (SortedMap.get?_mapValues _ _ n)
  | some ix => exact .inl rfl

theorem unchanged_refl (c : Container T) : c.Unchanged c := ⟨fun _ => .inl rfl, rfl⟩

theorem unchanged_edit (c : Container T) : c.Unchanged c.edit where
  find? key := by
    cases key with
    | number n => exact kept_draft c n
    | name s =>
      change Kept ((c.view.byName.get? s).bind c.get?)
        ((c.draft.byName.get? s).bind c.draft.byNumber.get?)
      rw [byName_draft]
      cases c.view.byName.get? s with
      | none => exact .inl rfl
      | some n => exact kept_draft c n
  byName_eq := byName_draft c

theorem Kept.bind_name? [LawfulComponent T] (h : Kept o o') : o'.bind name? = o.bind name? := by
  obtain rfl | rfl := h
  · rfl
  · cases o with
    | none => rfl
    | some x => exact LawfulComponent.name?_setEditable true x

theorem frame_withDraft [LawfulComponent T] {ix : Index T} (h : c.draft.Frame n ix) :
    c.Frame n (c.withDraft ix) where
  get? k hk := by
    have hix : (c.withDraft ix).get? k = c.draft.byNumber.get? k := h.byNumber k hk
    rw [hix]
    exact kept_draft c k
  byName s hold hnew := by
    have hdraft : (c.draft.byNumber.get? n).bind name? ≠ some s := by
      rwa [(kept_draft c n).bind_name?]
    exact (h.byName s hdraft hnew).trans (by rw [byName_draft])

theorem state_add_of_refused {x : T} (h : (c.add x).result ≠ .ok true) : (c.add x).state = c.edit := by
  revert h
  unfold add
  rcases c.draft.insert (setEditable true x) with e | _ | ix
  · exact fun _ => rfl
  · exact fun _ => rfl
  · exact fun h => absurd rfl h

theorem state_editComponent_of_refused {α : Type} {f : T → Except Error (α × T)}
    (h : ∀ a, (c.editComponent n f).result ≠ .ok (some a)) : (c.editComponent n f).state = c.edit := by
  revert h
  unfold editComponent
  rcases c.draft.modify n f with e | _ | ⟨a, ix⟩
  · exact fun _ => rfl
  · exact fun _ => rfl
  · exact fun h => absurd rfl (h a)

theorem delete_of_not_contains (h : c.contains n = false) : c.delete n = c := by
  rw [delete, h]
  rfl

theorem frame_of_erase [LawfulComponent T] {ix : Index T}
    (h : (c.draft.remove n).insert (erasing n) = .ok (some ix)) : c.draft.Frame n ix := by
  have hnone : (c.draft.remove n).byNumber.get? n = none := by rw [Index.get?_remove, if_pos rfl]
  have hinsert := Index.frame_insert h
  rw [LawfulComponent.number_erasing] at hinsert
  exact (Index.frame_remove c.draft n).trans hnone hinsert

/-- Whether the request opens the edit buffer or changes another component than that of the number. -/
def Request.Spares (n : UInt32) : Request T → Prop
  | .add x => number x ≠ n
  | .delete m => m ≠ n
  | .erase m => m ≠ n
  | .edit => True
  | .editComponent m _ => m ≠ n
  | _ => False

/-- A request to another component leaves the container as it is, or what is under the number as it would
be with the edit buffer open. -/
theorem serve_of_spares [LawfulComponent T] (c : Container T) {r : Request T} (hr : r.Spares n) :
    c.serve r = c ∨ ∃ ix, c.serve r = c.withDraft ix ∧ ix.byNumber.get? n = c.draft.byNumber.get? n := by
  have hopened : ∃ ix, c.edit = c.withDraft ix ∧ ix.byNumber.get? n = c.draft.byNumber.get? n :=
    ⟨c.draft, rfl, rfl⟩
  cases r with
  | add x =>
    have hx : n ≠ number (setEditable true x) := by
      rw [LawfulComponent.number_setEditable]
      exact Ne.symm hr
    right
    by_cases hadded : (c.add x).result = .ok true
    · obtain ⟨ix, hix, hstate⟩ := exists_insert_of_add hadded
      exact ⟨ix, hstate, (Index.frame_insert hix).byNumber n hx⟩
    · rw [serve, state_add_of_refused hadded]
      exact hopened
  | delete m =>
    cases hm : c.contains m with
    | false => exact .inl (delete_of_not_contains hm)
    | true =>
      refine .inr ⟨c.draft.remove m, ?_, (Index.frame_remove c.draft m).byNumber n (Ne.symm hr)⟩
      rw [serve, delete, if_pos hm]
  | erase m =>
    obtain ⟨ix, hix, herase⟩ := erase_eq c m
    exact .inr ⟨ix, congrArg Outcome.state herase, (frame_of_erase hix).byNumber n (Ne.symm hr)⟩
  | edit => exact .inr hopened
  | editComponent m f =>
    right
    by_cases hedited : ∃ a, (c.editComponent m f).result = .ok (some a)
    · obtain ⟨a, ha⟩ := hedited
      obtain ⟨ix, hix, hstate⟩ := exists_modify_of_editComponent ha
      exact ⟨ix, hstate, (Index.frame_modify hix).byNumber n (Ne.symm hr)⟩
    · have hrefused : ∀ a, (c.editComponent m f).result ≠ .ok (some a) := not_exists.1 hedited
      rw [serve, state_editComponent_of_refused hrefused]
      exact hopened
  | layLevel empty merge level => exact hr.elim
  | consolidate => exact hr.elim
  | rollback => exact hr.elim

theorem kept_run [LawfulComponent T] (c : Container T) {rs : List (Request T)}
    (hrs : ∀ r ∈ rs, r.Spares n) : Kept (c.get? n) ((c.run rs).get? n) := by
  have hrun : c.run rs = c ∨
      ∃ ix, c.run rs = c.withDraft ix ∧ ix.byNumber.get? n = c.draft.byNumber.get? n := by
    refine run_invariant (P := fun c' => c' = c ∨
      ∃ ix, c' = c.withDraft ix ∧ ix.byNumber.get? n = c.draft.byNumber.get? n) ?_ (.inl rfl) hrs
    intro c' r h hr
    obtain rfl | ⟨ix, rfl, hix⟩ := h
    · exact serve_of_spares c' hr
    · obtain hsame | ⟨ix', hstate, hix'⟩ := serve_of_spares (c.withDraft ix) hr
      · exact .inr ⟨ix, hsame, hix⟩
      · exact .inr ⟨ix', hstate, hix'.trans hix⟩
  obtain hsame | ⟨ix, hstate, hix⟩ := hrun
  · rw [hsame]
    exact .inl rfl
  · have hget : (c.run rs).get? n = c.draft.byNumber.get? n := by rw [hstate, ← hix]; rfl
    rw [hget]
    exact kept_draft c n

theorem committed_layDefinition (empty : UInt32 → T) (merge : T → T → Except Error T) (c : Container T)
    (x : T) : (c.layDefinition empty merge x).state.committed = c.committed := by
  have hadd : (c.add (empty (number x))).state.committed = c.committed := by
    unfold add
    split <;> rfl
  unfold layDefinition Outcome.andThen
  split
  next =>
    rw [← hadd]
    unfold editComponent
    dsimp only [Outcome.map]
    split <;> rfl
  next => exact hadd

theorem committed_layLevel (empty : UInt32 → T) (merge : T → T → Except Error T) (c level : Container T) :
    (c.layLevel empty merge level).state.committed = c.committed := by
  have herase : (c.eraseLevel level).committed = c.committed := by
    unfold eraseLevel
    induction level.components.filter isErasing generalizing c with
    | nil => rfl
    | cons x l ih => exact (ih (c.delete (number x))).trans (committed_delete c _)
  unfold layLevel
  rw [← herase]
  generalize c.eraseLevel level = c
  induction level.components.filter (!isErasing ·) generalizing c with
  | nil => rfl
  | cons x l ih =>
    have hx := committed_layDefinition empty merge c x
    unfold layDefinitions Outcome.andThen
    split
    next => exact (ih _).trans hx
    next => exact hx

/-- Only a consolidation changes what is committed. -/
theorem committed_serve (c : Container T) {r : Request T} (hr : r ≠ .consolidate) :
    (c.serve r).committed = c.committed := by
  cases r with
  | add x =>
    rw [serve, add]
    split <;> rfl
  | delete n => exact committed_delete c n
  | erase n =>
    rw [serve, erase]
    split <;> rfl
  | edit => rfl
  | editComponent n f =>
    rw [serve, editComponent]
    split <;> rfl
  | layLevel empty merge level => exact committed_layLevel empty merge c level
  | consolidate => exact absurd rfl hr
  | rollback => rfl

theorem committed_run {rs : List (Request T)} (hrs : ∀ r ∈ rs, r ≠ .consolidate) :
    (c.run rs).committed = c.committed :=
  run_invariant (P := fun c' => c'.committed = c.committed)
    (fun c' _ h hr => (committed_serve c' hr).trans h) rfl hrs

/-- What the container has been before the changes is there again when they are rolled back. -/
theorem rollback_run (hb : c.buffer = none) {rs : List (Request T)} (hrs : ∀ r ∈ rs, r ≠ .consolidate) :
    (c.run rs).rollback = c := by
  have hcommitted := committed_run hrs (c := c)
  rw [rollback, hcommitted, ← hb]

/-- The second container has no edit buffer, and has committed what is seen of the first, frozen or frozen
already. -/
structure Commits (c c' : Container T) : Prop where
  buffer_eq : c'.buffer = none
  byName_eq : c'.committed.byName = c.view.byName
  get? : ∀ n, c'.committed.byNumber.get? n = c.get? n ∨
    c'.committed.byNumber.get? n = (c.get? n).map freeze

/-- Whether the changes of a container are a transaction: what is refused, and what succeeds, leaves as it
is all that it does not have to change, and the changes are rolled back or consolidated as a whole. -/
structure Transactional (c : Container T) : Prop where
  opened : c.Unchanged c.edit
  add_refused : ∀ x, (c.add x).result ≠ .ok true → c.Unchanged (c.add x).state
  delete_refused : ∀ n, c.contains n = false → c.Unchanged (c.delete n)
  edit_refused : ∀ {α : Type} n (f : T → Except Error (α × T)),
    (∀ a, (c.editComponent n f).result ≠ .ok (some a)) → c.Unchanged (c.editComponent n f).state
  added : ∀ x, (c.add x).result = .ok true →
    c.get? (number x) = none ∧ (c.add x).state.get? (number x) = some (setEditable true x) ∧
      c.Frame (number x) (c.add x).state
  deleted : ∀ n, c.contains n = true → (c.delete n).get? n = none ∧ c.Frame n (c.delete n)
  erased : ∀ n, (c.erase n).result = .ok () ∧ (c.erase n).state.get? n = some (erasing n) ∧
    c.Frame n (c.erase n).state
  edited : ∀ {α : Type} n (f : T → Except Error (α × T)) a, (c.editComponent n f).result = .ok (some a) →
    ∃ x y, Kept (c.get? n) (some x) ∧ f x = .ok (a, y) ∧ (c.editComponent n f).state.get? n = some y ∧
      c.Frame n (c.editComponent n f).state
  spared : ∀ n rs, (∀ r ∈ rs, Request.Spares n r) → Kept (c.get? n) ((c.run rs).get? n)
  consolidated : c.Commits c.consolidate
  rolled_back : ∀ rs, (∀ r ∈ rs, r ≠ .consolidate) → (c.consolidate.run rs).rollback = c.consolidate
  rolled_back_initial : c.buffer = none → ∀ rs, (∀ r ∈ rs, r ≠ .consolidate) → (c.run rs).rollback = c

theorem commits_consolidate (c : Container T) : c.Commits c.consolidate := by
  cases hb : c.buffer with
  | none =>
    have hview : c.view = c.committed := by rw [view, hb, Option.getD_none]
    rw [consolidate_eq_self hb]
    exact ⟨hb, by rw [hview], fun n => .inl (by rw [get?, hview])⟩
  | some ix =>
    have hview : c.view = ix := by rw [view, hb, Option.getD_some]
    rw [consolidate, hb]
    exact ⟨rfl, by rw [hview]; rfl, fun n => .inr (by rw [get?, hview]; exact SortedMap.get?_mapValues _ _ n)⟩

theorem transactional [LawfulComponent T] (c : Container T) : c.Transactional where
  opened := unchanged_edit c
  add_refused x h := by
    rw [state_add_of_refused h]
    exact unchanged_edit c
  delete_refused n h := by
    rw [delete_of_not_contains h]
    exact unchanged_refl c
  edit_refused n f h := by
    rw [state_editComponent_of_refused h]
    exact unchanged_edit c
  added x h := by
    obtain ⟨ix, hix, hstate⟩ := exists_insert_of_add h
    have hframe := Index.frame_insert hix
    have hget := Index.get?_of_insert hix (number x)
    obtain ⟨hnone, -, -⟩ := Index.insert_eq_ok hix
    rw [LawfulComponent.number_setEditable] at hframe hget hnone
    rw [if_pos rfl] at hget
    rw [hstate]
    refine ⟨?_, hget, frame_withDraft hframe⟩
    exact SortedMap.contains_eq_false_iff.1 ((get?_draft_eq_none_iff c _).1 hnone)
  deleted n h := by
    have hdelete : c.delete n = c.withDraft (c.draft.remove n) := by rw [delete, if_pos h]
    have hnone : (c.draft.remove n).byNumber.get? n = none := by rw [Index.get?_remove, if_pos rfl]
    rw [hdelete]
    exact ⟨hnone, frame_withDraft (Index.frame_remove c.draft n)⟩
  erased n := by
    obtain ⟨ix, hix, herase⟩ := erase_eq c n
    have hget := Index.get?_of_insert hix n
    rw [LawfulComponent.number_erasing, if_pos rfl] at hget
    rw [herase]
    exact ⟨rfl, hget, frame_withDraft (frame_of_erase hix)⟩
  edited n f a h := by
    obtain ⟨ix, hix, hstate⟩ := exists_modify_of_editComponent h
    obtain ⟨x, y, hx, hy, -, hnum⟩ := Index.modify_eq_ok hix
    have hget : ix.byNumber.get? n = some y := by rw [hnum, SortedMap.get?_insert, if_pos rfl]
    rw [hstate]
    exact ⟨x, y, hx ▸ kept_draft c n, hy, hget, frame_withDraft (Index.frame_modify hix)⟩
  spared n rs h := kept_run c h
  consolidated := commits_consolidate c
  rolled_back rs h := rollback_run (buffer_consolidate c) h
  rolled_back_initial hb rs h := rollback_run hb h

end Container

end ChronicleMeta
