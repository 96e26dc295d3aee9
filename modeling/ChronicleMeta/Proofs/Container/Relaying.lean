import ChronicleMeta.Proofs.Container.Acceptance
import ChronicleMeta.Proofs.Container.Alike

/-!
Levels laid again. A level that is laid a second time in a row finds everything as it leaves it, unless
it defines a number twice, and a flattened container that is laid over nothing gives an edit buffer like
the one it was made of.
-/

namespace ChronicleMeta.Container

open Component

variable {T : Type} [Component T] {empty : UInt32 → T} {merge : T → T → Except Error T}
  {c c' c'' level : Container T}

theorem Keyed.get?_of_mem (h : level.Keyed) {x : T} (hx : x ∈ level.components) :
    level.get? (number x) = some x := by
  obtain ⟨n, hn⟩ := SortedMap.mem_values_iff.1 hx
  have hnumber : number x = n := h n x hn
  rw [hnumber]
  exact hn

/-- No number is defined twice, whatever numbers the definitions are under. -/
def Distinct (c : Container T) : Prop := (c.components.map number).Nodup

theorem Keyed.distinct (h : level.Keyed) : level.Distinct :=
  List.pairwise_map.2 (h.pairwise_components.imp UInt32.ne_of_lt)

/-- A number has at most one definition in a level. -/
theorem Keyed.definitionsOf_eq (h : level.Keyed) {n : UInt32} {x : T} (hx : level.get? n = some x)
    (hdefines : isErasing x = false) : level.definitionsOf n = [x] := by
  have hnumber : number x = n := h n x hx
  have hperm : level.components.Perm (x :: (level.view.byNumber.erase n).values) := by
    unfold components Index.components SortedMap.values
    exact (SortedMap.toList_perm_cons_erase hx).map Prod.snd
  have hothers : ∀ y ∈ (level.view.byNumber.erase n).values, ¬(number y = n && !isErasing y) := by
    intro y hy
    obtain ⟨k, hk⟩ := SortedMap.mem_values_iff.1 hy
    rw [SortedMap.get?_erase] at hk
    split_ifs at hk with hkn
    have hky : number y = k := h k y hk
    simp [hky, hkn]
  have hfilter := hperm.filter fun y => number y = n && !isErasing y
  rw [List.filter_cons_of_pos (by simp [hnumber, hdefines]), List.filter_eq_nil_iff.2 hothers] at hfilter
  exact List.perm_singleton.1 hfilter

theorem definitionsOf_eq_nil (h : level.Keyed) {n : UInt32} (hn : level.get? n = none) :
    level.definitionsOf n = [] := by
  refine List.filter_eq_nil_iff.2 fun x hx => ?_
  have hne : number x ≠ n := by
    rintro rfl
    cases hn.symm.trans (h.get?_of_mem hx)
  simp [hne]

/-- The edit buffer holds a component that the definition does not change any more. -/
def Settles (merge : T → T → Except Error T) (x : T) (c : Container T) : Prop :=
  ∃ z, c.buffer = some c.draft ∧ c.draft.byNumber.get? (number x) = some z ∧ merge z x = .ok z

theorem withDraft_of_add {x : T} {added : Bool} (h : (c.add x).commit = .ok (added, c')) :
    c' = c.withDraft c'.draft := by
  obtain ⟨-, rfl⟩ := Outcome.commit_eq_ok_iff.1 h
  unfold add
  split <;> rfl

theorem withDraft_of_editComponent {α : Type} {n : UInt32} {f : T → Except Error (α × T)}
    {o : Option α} (h : (c.editComponent n f).commit = .ok (o, c')) : c' = c.withDraft c'.draft := by
  obtain ⟨-, rfl⟩ := Outcome.commit_eq_ok_iff.1 h
  unfold editComponent
  split <;> rfl

/-- What merging a definition makes of the container: its component is merged, and the others stay. -/
theorem mergeDefinition_eq_ok (hempty : ∀ n, number (setEditable true (empty n)) = n) {x : T}
    (h : mergeDefinition empty merge c x = .ok c') :
    c' = c.withDraft c'.draft ∧
      (∃ y z, merge y x = .ok z ∧ c'.draft.byNumber.get? (number x) = some z) ∧
      ∀ n, n ≠ number x → c'.draft.byNumber.get? n = c.draft.byNumber.get? n := by
  obtain ⟨⟨added, c₁⟩, hadd, h⟩ := bind_eq_ok_iff.1 h
  obtain ⟨⟨o, c₂⟩, hedit, h⟩ := bind_eq_ok_iff.1 h
  obtain rfl : c₂ = c' := pure_eq_ok_iff.1 h
  have hc₁ := withDraft_of_add hadd
  have hc₂ := withDraft_of_editComponent hedit
  have hadded : (∃ y, c₁.draft.byNumber.get? (number x) = some y) ∧
      ∀ n, n ≠ number x → c₁.draft.byNumber.get? n = c.draft.byNumber.get? n := by
    obtain ⟨-, ⟨⟨y, hy⟩, hd⟩ | hins⟩ := add_eq_ok hadd
    · rw [hempty] at hy
      exact ⟨⟨y, by rw [hd, hy]⟩, fun n _ => by rw [hd]⟩
    · obtain ⟨-, hnum, -⟩ := Index.insert_eq_ok hins
      rw [hempty] at hnum
      rw [hnum]
      exact ⟨⟨_, SortedMap.get?_insert_self _ _ _⟩, fun n hn => SortedMap.get?_insert_of_ne _ hn _⟩
  obtain ⟨⟨y, hy⟩, hold⟩ := hadded
  obtain ⟨-, ⟨hnone, -⟩ | ⟨u, -, hmod⟩⟩ := editComponent_eq_ok hedit
  · cases hnone.symm.trans hy
  obtain ⟨y', z, -, hz, -, hnum⟩ := Index.modify_eq_ok hmod
  obtain ⟨w, hw, he⟩ := map_eq_ok_iff.1 hz
  cases he
  refine ⟨?_, ⟨y', z, hw, by rw [hnum, SortedMap.get?_insert_self]⟩, fun n hn => ?_⟩
  · rw [hc₁] at hc₂
    exact hc₂
  · rw [hnum, SortedMap.get?_insert_of_ne _ hn, hold n hn]

theorem settles_of_mergeDefinition (hempty : ∀ n, number (setEditable true (empty n)) = n) {x : T}
    (hmerge : ∀ y z, merge y x = .ok z → merge z x = .ok z)
    (h : mergeDefinition empty merge c x = .ok c') : Settles merge x c' := by
  obtain ⟨hc', ⟨y, z, hz, hget⟩, -⟩ := mergeDefinition_eq_ok hempty h
  have hbuffer : c'.buffer = some c'.draft := by rw [hc']; rfl
  exact ⟨z, hbuffer, hget, hmerge y z hz⟩

theorem Settles.mergeDefinition_of_ne (hempty : ∀ n, number (setEditable true (empty n)) = n) {x y : T}
    (hx : Settles merge x c) (hne : number x ≠ number y)
    (h : mergeDefinition empty merge c y = .ok c') : Settles merge x c' := by
  obtain ⟨z, -, hget, hz⟩ := hx
  obtain ⟨hc', -, hold⟩ := mergeDefinition_eq_ok hempty h
  have hbuffer : c'.buffer = some c'.draft := by rw [hc']; rfl
  exact ⟨z, hbuffer, (hold _ hne).trans hget, hz⟩

/-- A definition that changes nothing leaves the container exactly as it is. -/
theorem Settles.mergeDefinition_eq (hempty : ∀ n, number (setEditable true (empty n)) = n) {x : T}
    (h : Settles merge x c) : mergeDefinition empty merge c x = .ok c := by
  obtain ⟨z, hbuffer, hget, hz⟩ := h
  have hself : c.withDraft c.draft = c := by
    rw [withDraft, ← hbuffer]
  have hedit : c.edit = c := hself
  have hcontains : c.draft.byNumber.contains (number x) := SortedMap.contains_iff.2 ⟨z, hget⟩
  have hadd : (c.add (empty (number x))).commit = .ok (false, c) := by
    unfold add Index.insert
    rw [hempty, if_pos hcontains]
    exact congrArg (fun c => Except.ok (false, c)) hedit
  have hinsert : c.draft.byNumber.insert (number x) z = c.draft.byNumber := by
    refine SortedMap.ext_get? fun n => ?_
    rw [SortedMap.get?_insert]
    split_ifs with hn
    · rw [hn, hget]
    · rfl
  have hmodify : c.draft.modify (number x) (fun y => (merge y x).map ((), ·)) =
      .ok (some ((), c.draft)) := by
    unfold Index.modify Index.rename
    rw [hget]
    dsimp only
    rw [hz]
    simp only [Except.map, ok_bind, if_pos, hinsert]
    rfl
  have heditComponent : (c.editComponent (number x) fun y => (merge y x).map ((), ·)).commit =
      .ok (some (), c) := by
    unfold editComponent
    rw [hmodify]
    exact congrArg (fun c => Except.ok (some (), c)) hself
  unfold mergeDefinition
  rw [hadd, ok_bind]
  dsimp only
  rw [heditComponent]
  rfl

private theorem settles_of_mergeDefinitions (hempty : ∀ n, number (setEditable true (empty n)) = n)
    {l : List T} (hl : l.Pairwise fun x y => number x ≠ number y)
    (hmerge : ∀ x ∈ l, ∀ y z, merge y x = .ok z → merge z x = .ok z)
    (h : l.foldlM (mergeDefinition empty merge) c = .ok c') :
    (∀ x, Settles merge x c → (∀ y ∈ l, number x ≠ number y) → Settles merge x c') ∧
      (∀ x ∈ l, Settles merge x c') ∧
      ∀ n, (∀ y ∈ l, n ≠ number y) → c'.draft.byNumber.get? n = c.draft.byNumber.get? n := by
  induction l generalizing c with
  | nil =>
    obtain rfl : c = c' := pure_eq_ok_iff.1 h
    exact ⟨fun x hx _ => hx, fun x hx => absurd hx List.not_mem_nil, fun n _ => rfl⟩
  | cons y l ih =>
    rw [List.foldlM_cons] at h
    obtain ⟨c₁, hc₁, h⟩ := bind_eq_ok_iff.1 h
    obtain ⟨hy, hl⟩ := List.pairwise_cons.1 hl
    obtain ⟨hmergey, hmerge⟩ := List.forall_mem_cons.1 hmerge
    obtain ⟨hkept, hsettled, hold⟩ := ih hl hmerge h
    obtain ⟨-, -, hfirst⟩ := mergeDefinition_eq_ok hempty hc₁
    have hsettles := settles_of_mergeDefinition hempty hmergey hc₁
    refine ⟨fun x hx hne => ?_, List.forall_mem_cons.2 ⟨?_, hsettled⟩, fun n hn => ?_⟩
    · obtain ⟨hxy, hne⟩ := List.forall_mem_cons.1 hne
      exact hkept x (hx.mergeDefinition_of_ne hempty hxy hc₁) hne
    · exact hkept y hsettles hy
    · obtain ⟨hny, hn⟩ := List.forall_mem_cons.1 hn
      rw [hold n hn, hfirst n hny]

private theorem foldlM_mergeDefinition_eq (hempty : ∀ n, number (setEditable true (empty n)) = n)
    {l : List T} (h : ∀ x ∈ l, Settles merge x c) :
    l.foldlM (mergeDefinition empty merge) c = .ok c := by
  induction l with
  | nil => rfl
  | cons x l ih =>
    obtain ⟨hx, hl⟩ := List.forall_mem_cons.1 h
    rw [List.foldlM_cons, hx.mergeDefinition_eq hempty, ok_bind, ih hl]

private theorem foldl_delete_eq {l : List T} (h : ∀ x ∈ l, c.draft.byNumber.get? (number x) = none) :
    l.foldl (fun c x => c.delete (number x)) c = c := by
  induction l with
  | nil => rfl
  | cons x l ih =>
    obtain ⟨hx, hl⟩ := List.forall_mem_cons.1 h
    have hcontains : c.contains (number x) = false := (get?_draft_eq_none_iff c _).1 hx
    have hdelete : c.delete (number x) = c := by
      rw [delete, hcontains, if_neg Bool.false_ne_true]
    rw [List.foldl_cons, hdelete, ih hl]

private theorem get?_draft_foldl_delete {l : List T} {n : UInt32}
    (h : c.draft.byNumber.get? n = none ∨ ∃ x ∈ l, number x = n) :
    (l.foldl (fun c x => c.delete (number x)) c).draft.byNumber.get? n = none := by
  induction l generalizing c with
  | nil => exact h.resolve_right fun ⟨x, hx, _⟩ => absurd hx List.not_mem_nil
  | cons y l ih =>
    rw [List.foldl_cons]
    apply ih
    rw [get?_draft_delete]
    rcases h with h | ⟨x, hx, hn⟩
    · exact .inl (by split_ifs; exacts [rfl, h])
    · rcases List.mem_cons.1 hx with rfl | hx
      · exact .inl (if_pos hn.symm)
      · exact .inr ⟨x, hx, hn⟩

/-- A level that is laid a second time changes nothing. -/
theorem mergeLevel_mergeLevel (hempty : ∀ n, number (setEditable true (empty n)) = n)
    (hdistinct : level.Distinct)
    (hmerge : ∀ x ∈ level.components, ∀ y z, merge y x = .ok z → merge z x = .ok z)
    (h : mergeLevel empty merge c level = .ok c') : mergeLevel empty merge c' level = .ok c' := by
  have hdefines : ∀ x ∈ level.components.filter (!isErasing ·), x ∈ level.components ∧
      isErasing x = false := fun x hx => by simpa using List.mem_filter.1 hx
  have hpairwise := (List.pairwise_map.1 hdistinct).filter (!isErasing ·)
  obtain ⟨-, hsettled, hold⟩ := settles_of_mergeDefinitions hempty hpairwise
    (fun x hx => hmerge x (hdefines x hx).1) h
  -- What the level removes is not defined by it, and so is not there any more.
  have hremoved : ∀ x ∈ level.components.filter isErasing,
      c'.draft.byNumber.get? (number x) = none := by
    intro x hx
    obtain ⟨hmem, herasing⟩ := List.mem_filter.1 hx
    rw [hold (number x) fun y hy hnumber => ?_]
    · exact get?_draft_foldl_delete (.inr ⟨x, hx, rfl⟩)
    · obtain ⟨hy, hyd⟩ := hdefines y hy
      rw [List.inj_on_of_nodup_map hdistinct hmem hy hnumber, hyd] at herasing
      cases herasing
  have herase : c'.eraseLevel level = c' := foldl_delete_eq hremoved
  rw [mergeLevel, herase]
  exact foldlM_mergeDefinition_eq hempty hsettled

/-- The component is the empty one or, of a single definition, what this is merged into it. -/
def Once (empty : UInt32 → T) (merge : T → T → Except Error T) (ds : List T) (y : T) : Prop :=
  (ds = [] → y = setEditable true (empty (number y))) ∧
    ∀ d, ds = [d] → merge (setEditable true (empty (number y))) d = .ok y

theorem mergeRule_once (hempty : ∀ n, number (setEditable true (empty n)) = n)
    (hnumber : ∀ x d y, merge x d = .ok y → number y = number x) :
    MergeRule empty merge (Once empty merge) where
  number_empty := hempty
  number_merge := hnumber
  made_empty n := ⟨fun _ => by rw [hempty], nofun⟩
  made_merge ds x d y hx hy := by
    refine ⟨nofun, fun e he => ?_⟩
    obtain ⟨rfl, rfl⟩ := List.cons.inj he
    rw [hnumber x d y hy, ← hx.1 rfl]
    exact hy

/-- The edit buffer of the container, with nothing committed before, holds components that are made
again, but for `R`, when their frozen forms are merged into empty ones. -/
structure Relayable (empty : UInt32 → T) (merge : T → T → Except Error T) (wellFormed : T → Prop)
    (R : T → T → Prop) (c : Container T) : Prop where
  committed_eq : c.committed = {}
  consistent : c.draft.Consistent
  isErasing_eq : ∀ n x, c.draft.byNumber.get? n = some x → isErasing (freeze x) = false
  wellFormed : ∀ n x, c.draft.byNumber.get? n = some x → wellFormed (freeze x)
  remade : ∀ n x, c.draft.byNumber.get? n = some x →
    ∃ y, merge (setEditable true (empty n)) (freeze x) = .ok y ∧ R y x

variable {made : List T → T → Prop} {wellFormed : T → Prop}
  {fits : List T → Prop} {nameOf : List T → Option String} {R : T → T → Prop} {n : UInt32} {x : T}

namespace Relayable

theorem get?_eq (h : Relayable empty merge wellFormed R c) (hx : c.draft.byNumber.get? n = some x) :
    c.consolidate.get? n = some (freeze x) := by
  rw [get?_consolidate h.committed_eq, hx, Option.map_some]

theorem get?_eq_none (h : Relayable empty merge wellFormed R c)
    (hn : c.draft.byNumber.get? n = none) : c.consolidate.get? n = none := by
  rw [get?_consolidate h.committed_eq, hn, Option.map_none]

theorem exists_of_get? (h : Relayable empty merge wellFormed R c)
    (hx : c.consolidate.get? n = some x) : ∃ y, c.draft.byNumber.get? n = some y ∧ freeze y = x := by
  rw [get?_consolidate h.committed_eq] at hx
  exact Option.map_eq_some_iff.1 hx

theorem untaken (hrule : JudgedRule empty merge made wellFormed fits nameOf) (level : Container T) :
    Untaken nameOf level [] := by
  intro m n s _ _ _ _ hs
  rw [inForce, hrule.nameOf_nil] at hs
  cases hs

variable [LawfulComponent T]

theorem keyed (h : Relayable empty merge wellFormed R c) : c.consolidate.Keyed := by
  intro n x hx
  obtain ⟨y, hy, rfl⟩ := h.exists_of_get? hx
  rw [LawfulComponent.number_freeze, h.consistent.number_eq n y hy]

/-- Every number is defined once by the flattened container. -/
theorem inForce_eq (h : Relayable empty merge wellFormed R c)
    (hx : c.draft.byNumber.get? n = some x) : inForce n [c.consolidate] = [freeze x] := by
  rw [inForce, h.keyed.definitionsOf_eq (h.get?_eq hx) (h.isErasing_eq n x hx)]
  simp [inForce]

theorem inForce_eq_nil (h : Relayable empty merge wellFormed R c)
    (hn : c.draft.byNumber.get? n = none) : inForce n [c.consolidate] = [] := by
  rw [inForce, definitionsOf_eq_nil h.keyed (h.get?_eq_none hn)]
  simp [inForce]

theorem exists_of_nameOf (hrule : JudgedRule empty merge made wellFormed fits nameOf)
    (hname : ∀ y x, R y x → name? y = name? x) (h : Relayable empty merge wellFormed R c) {s : String}
    (hs : nameOf (inForce n [c.consolidate]) = some s) :
    ∃ x, c.draft.byNumber.get? n = some x ∧ name? x = some s := by
  cases hx : c.draft.byNumber.get? n with
  | none =>
    rw [h.inForce_eq_nil hx, hrule.nameOf_nil] at hs
    cases hs
  | some x =>
    obtain ⟨y, hy, hyx⟩ := h.remade n x hx
    have hmade : made [freeze x] y := hrule.made_merge [] _ _ y (hrule.made_empty n) hy
    rw [h.inForce_eq hx, ← hrule.name?_eq _ y hmade, hname y x hyx] at hs
    exact ⟨x, rfl, hs⟩

theorem fits_consolidate (hrule : JudgedRule empty merge made wellFormed fits nameOf)
    (hname : ∀ y x, R y x → name? y = name? x) (h : Relayable empty merge wellFormed R c) :
    Fits fits nameOf c.consolidate [] := by
  refine ⟨fun n hn => ?_, fun m n s hm hs => ?_⟩
  · cases hx : c.draft.byNumber.get? n with
    | none => exact absurd (definitionsOf_eq_nil h.keyed (h.get?_eq_none hx)) hn
    | some x =>
      obtain ⟨y, hy, -⟩ := h.remade n x hx
      rw [h.inForce_eq hx]
      exact (hrule.merge_ok_iff [] _ _ (hrule.made_empty n) (h.wellFormed n x hx)).1 ⟨y, hy⟩
  · obtain ⟨x, hx, hxs⟩ := exists_of_nameOf hrule hname h hm
    obtain ⟨y, hy, hys⟩ := exists_of_nameOf hrule hname h hs
    exact h.consistent.eq_of_name hx hy hxs hys

/-- What is laid over nothing comes out as it was. -/
theorem alike (hname : ∀ y x, R y x → name? y = name? x) (h : Relayable empty merge wellFormed R c)
    (hc' : Holds (Once empty merge) (inForce · [c.consolidate]) c') : c'.Alike R c := by
  have hslots : ∀ n, Option.Rel R (c'.draft.byNumber.get? n) (c.draft.byNumber.get? n) := by
    intro n
    have hslot := hc'.slot n
    cases hx : c.draft.byNumber.get? n with
    | none =>
      rw [h.inForce_eq_nil hx] at hslot
      cases hy : c'.draft.byNumber.get? n with
      | none => exact .none
      | some y =>
        rw [hy] at hslot
        exact absurd rfl hslot.1
    | some x =>
      rw [h.inForce_eq hx] at hslot
      cases hy : c'.draft.byNumber.get? n with
      | none =>
        rw [hy] at hslot
        cases hslot
      | some y =>
        rw [hy] at hslot
        obtain ⟨z, hz, hzx⟩ := h.remade n x hx
        have hmerged := hslot.2.2 (freeze x) rfl
        rw [hc'.consistent.number_eq n y hy, hz] at hmerged
        obtain rfl : z = y := Except.ok.inj hmerged
        exact .some hzx
  have hbyName : c'.draft.byName = c.draft.byName := by
    refine SortedMap.ext_get? fun s => Option.ext fun n => ?_
    have hn := hslots n
    rw [hc'.consistent.byName_iff, h.consistent.byName_iff]
    generalize c'.draft.byNumber.get? n = y at hn ⊢
    generalize c.draft.byNumber.get? n = x at hn ⊢
    cases hn with
    | none => exact Iff.rfl
    | some hyx => simp [hname _ _ hyx]
  exact ⟨hc'.committed_eq, h.committed_eq, hbyName, hslots⟩

/-- A flattened container can be laid over nothing, and gives an edit buffer like the one that it was
consolidated from. -/
theorem exists_mergeLevel (hrule : JudgedRule empty merge made wellFormed fits nameOf)
    (hname : ∀ y x, R y x → name? y = name? x) (h : Relayable empty merge wellFormed R c) :
    ∃ c', mergeLevel empty merge {} c.consolidate = .ok c' ∧ c'.Alike R c := by
  have hwell : ∀ x ∈ c.consolidate.components, wellFormed x := by
    intro x hx
    obtain ⟨y, hy, rfl⟩ := h.exists_of_get? (h.keyed.get?_of_mem hx)
    exact h.wellFormed _ y hy
  have hnothing : ∀ {m : List T → T → Prop}, Holds m (inForce · []) {} := holds_empty
  have hmerge := hnothing.mergeLevel_ok_iff hrule h.keyed hwell
  obtain ⟨c', hc'⟩ := hmerge.2 ⟨h.fits_consolidate hrule hname, untaken hrule _⟩
  have honce : Holds (Once empty merge) (inForce · [c.consolidate]) c' :=
    hnothing.mergeLevel (mergeRule_once hrule.number_empty hrule.number_merge) hc'
  exact ⟨c', hc', h.alike hname honce⟩

end Relayable

end ChronicleMeta.Container
