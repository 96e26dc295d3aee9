import ChronicleMeta.Container.Basic
import ChronicleMeta.Proofs.Container.Draft

/-!
What becomes of the components of a container that is built anew. The components of a consistent
container are all kept, in their order, and a frozen container whose components do not change is
built as it was.
-/

namespace ChronicleMeta.Container

open Component

variable {T σ : Type} [Component T]

def addAll (c : Container T) (l : List T) : Except Error (Container T) :=
  l.foldlM (fun c y => (c.add y).commit.map (·.2)) c

theorem addAll_cons_eq_ok_iff {c c' : Container T} {y : T} {l : List T} :
    c.addAll (y :: l) = .ok c' ↔
      ∃ added c₁, (c.add y).commit = .ok (added, c₁) ∧ c₁.addAll l = .ok c' := by
  rw [addAll, List.foldlM_cons, bind_eq_ok_iff]
  simp only [map_eq_ok_iff, Prod.exists]
  constructor
  · rintro ⟨_, ⟨added, c₁, hadd, rfl⟩, h⟩
    exact ⟨added, c₁, hadd, h⟩
  · rintro ⟨added, c₁, hadd, h⟩
    exact ⟨c₁, ⟨added, c₁, hadd, rfl⟩, h⟩

private theorem foldlM_add_eq_ok_iff {f : T → StateT σ (Except Error) T} {l : List T}
    {c c' : Container T} {s s' : σ} :
    (l.foldlM (fun (r : Container T) x => do return (← (r.add (← f x)).commit).2) c).run s =
        .ok (c', s') ↔
      ∃ l', (l.mapM f).run s = .ok (l', s') ∧ c.addAll l' = .ok c' := by
  induction l generalizing c s with
  | nil =>
    rw [List.foldlM_nil, List.mapM_nil, run_pure_eq_ok_iff]
    constructor
    · rintro ⟨rfl, rfl⟩
      exact ⟨[], rfl, rfl⟩
    · rintro ⟨l', hl', hall⟩
      obtain ⟨rfl, rfl⟩ := run_pure_eq_ok_iff.1 hl'
      exact ⟨Except.ok.inj hall, rfl⟩
  | cons x l ih =>
    rw [List.foldlM_cons, List.mapM_cons]
    constructor
    · intro h
      obtain ⟨c₁, s₁, hstep, h⟩ := run_bind_eq_ok_iff.1 h
      obtain ⟨y, s₂, hy, hstep⟩ := run_bind_eq_ok_iff.1 hstep
      obtain ⟨⟨added, c₂⟩, s₃, hlift, hstep⟩ := run_bind_eq_ok_iff.1 hstep
      obtain ⟨rfl, rfl⟩ := run_pure_eq_ok_iff.1 hstep
      obtain ⟨hadd, rfl⟩ := run_lift_eq_ok_iff.1 hlift
      obtain ⟨l', hl', hall⟩ := ih.1 h
      refine ⟨y :: l', ?_, addAll_cons_eq_ok_iff.2 ⟨added, c₂, hadd, hall⟩⟩
      exact run_bind_eq_ok_iff.2 ⟨y, s₂, hy, run_bind_eq_ok_iff.2 ⟨l', s', hl', rfl⟩⟩
    · rintro ⟨l₁, hl₁, hall⟩
      obtain ⟨y, s₂, hy, hl₁⟩ := run_bind_eq_ok_iff.1 hl₁
      obtain ⟨l', s₃, hl', hl₁⟩ := run_bind_eq_ok_iff.1 hl₁
      obtain ⟨rfl, rfl⟩ := run_pure_eq_ok_iff.1 hl₁
      obtain ⟨added, c₂, hadd, hall⟩ := addAll_cons_eq_ok_iff.1 hall
      refine run_bind_eq_ok_iff.2 ⟨c₂, s₂, ?_, ih.2 ⟨l', hl', hall⟩⟩
      exact run_bind_eq_ok_iff.2 ⟨y, s₂, hy, run_bind_eq_ok_iff.2
        ⟨(added, c₂), s₂, run_lift_eq_ok_iff.2 ⟨hadd, rfl⟩, rfl⟩⟩

/-- To build a container anew is to change the components in turn, and to add what comes of it. -/
theorem rebuild_eq_ok_iff {f : T → StateT σ (Except Error) T} {c c' : Container T} {s s' : σ} :
    (c.rebuild f).run s = .ok (c', s') ↔
      ∃ l r, (c.components.mapM f).run s = .ok (l, s') ∧ addAll {} l = .ok r ∧ r.consolidate = c' := by
  rw [rebuild, run_bind_eq_ok_iff]
  constructor
  · rintro ⟨r, s₁, h, hr⟩
    obtain ⟨rfl, rfl⟩ := run_pure_eq_ok_iff.1 hr
    obtain ⟨l, hl, hall⟩ := foldlM_add_eq_ok_iff.1 h
    exact ⟨l, r, hl, hall, rfl⟩
  · rintro ⟨l, r, hl, hall, rfl⟩
    exact ⟨r, s', foldlM_add_eq_ok_iff.2 ⟨l, hl, hall⟩, rfl⟩

theorem buffer_of_rebuild {f : T → StateT σ (Except Error) T} {c c' : Container T} {s s' : σ}
    (h : (c.rebuild f).run s = .ok (c', s')) : c'.buffer = none := by
  obtain ⟨l, r, -, -, rfl⟩ := rebuild_eq_ok_iff.1 h
  exact buffer_consolidate r

/-- What a component becomes when it is added and consolidated. -/
def refreeze (x : T) : T := freeze (setEditable true x)

private theorem mem_draft_of_addAll {l : List T} {c r : Container T} {P : T → Prop}
    (h : c.addAll l = .ok r) (hcommitted : c.committed = {})
    (hc : ∀ n x, c.draft.byNumber.get? n = some x → P x) (hl : ∀ y ∈ l, P (setEditable true y)) :
    r.committed = {} ∧ ∀ n x, r.draft.byNumber.get? n = some x → P x := by
  induction l generalizing c with
  | nil =>
    obtain rfl : c = r := Except.ok.inj h
    exact ⟨hcommitted, hc⟩
  | cons y l ih =>
    obtain ⟨added, c₁, hadd, h⟩ := addAll_cons_eq_ok_iff.1 h
    obtain ⟨hcom, hdraft⟩ := add_eq_ok hadd
    refine ih h (hcom.trans hcommitted) (fun n x hx => ?_) fun z hz => hl z (List.mem_cons_of_mem _ hz)
    rcases hdraft with ⟨-, hd⟩ | hins
    · exact hc n x (hd ▸ hx)
    · obtain ⟨-, hnum, -⟩ := Index.insert_eq_ok hins
      rw [hnum, SortedMap.get?_insert] at hx
      split_ifs at hx with hn
      · exact Option.some.inj hx ▸ hl y List.mem_cons_self
      · exact hc n x hx

/-- Every component of a container built anew is one that was given, frozen. -/
theorem mem_components_of_addAll {l : List T} {r : Container T} (h : addAll {} l = .ok r) {y : T}
    (hy : y ∈ r.consolidate.components) : ∃ x ∈ l, y = refreeze x := by
  obtain ⟨hcommitted, hdraft⟩ := mem_draft_of_addAll (P := fun z => ∃ x ∈ l, z = setEditable true x)
    h rfl (by simp [draft, Index.map]) fun x hx => ⟨x, hx, rfl⟩
  obtain ⟨n, hn⟩ := SortedMap.mem_values_iff.1 hy
  have hn : r.consolidate.get? n = some y := hn
  rw [get?_consolidate hcommitted] at hn
  obtain ⟨z, hz, rfl⟩ := Option.map_eq_some_iff.1 hn
  obtain ⟨x, hx, rfl⟩ := hdraft n z hz
  exact ⟨x, hx, rfl⟩

/-- A number that a component has, of those that were there or of those that have been added, is taken. -/
private theorem exists_of_addAll {l : List T} {c r : Container T} (h : c.addAll l = .ok r) {n : UInt32}
    (hn : (∃ x, c.draft.byNumber.get? n = some x) ∨ ∃ y ∈ l, number (setEditable true y) = n) :
    ∃ x, r.draft.byNumber.get? n = some x := by
  induction l generalizing c with
  | nil =>
    obtain rfl : c = r := Except.ok.inj h
    simpa using hn
  | cons y l ih =>
    obtain ⟨added, c₁, hadd, h⟩ := addAll_cons_eq_ok_iff.1 h
    have hstep : (∃ x, c₁.draft.byNumber.get? n = some x) ↔
        (∃ x, c.draft.byNumber.get? n = some x) ∨ number (setEditable true y) = n := by
      obtain ⟨-, ⟨htaken, hd⟩ | hins⟩ := add_eq_ok hadd
      · rw [hd]
        exact (or_iff_left_of_imp fun heq => heq ▸ htaken).symm
      · obtain ⟨-, hbyNumber, -⟩ := Index.insert_eq_ok hins
        rw [hbyNumber, SortedMap.get?_insert]
        split_ifs with heq
        · simp [heq]
        · simp [Ne.symm heq]
    refine ih h ?_
    rw [hstep, or_assoc]
    simpa using hn

/-- A container built anew has a component under each number that was given. -/
theorem exists_get?_of_addAll {l : List T} {r : Container T} (h : addAll {} l = .ok r) {x : T}
    (hx : x ∈ l) : ∃ y, r.consolidate.get? (number (setEditable true x)) = some y := by
  obtain ⟨hcommitted, -⟩ := mem_draft_of_addAll (P := fun _ => True) h rfl (fun _ _ _ => trivial)
    fun _ _ => trivial
  obtain ⟨y, hy⟩ := exists_of_addAll h (.inr ⟨x, hx, rfl⟩)
  exact ⟨freeze y, by rw [get?_consolidate hcommitted, hy, Option.map_some]⟩

/-- A container to which the components of the list, in ascending order of their numbers, have been
added, and nothing else. -/
structure Gathers (l : List T) (c : Container T) : Prop where
  committed_eq : c.committed = {}
  consistent : c.draft.Consistent
  toList_eq : c.draft.byNumber.toList = l.map fun x => (number x, setEditable true x)

theorem gathers_nil : Gathers [] ({} : Container T) := ⟨rfl, Index.consistent_empty, rfl⟩

variable [LawfulComponent T]

theorem name?_refreeze (x : T) : name? (refreeze x) = name? x :=
  (LawfulComponent.name?_freeze _).trans (LawfulComponent.name?_setEditable true x)

/-- A component with a greater number than the others can be added unless its name is taken. -/
theorem Gathers.add {l : List T} {c : Container T} (h : Gathers l c) {y : T}
    (hy : ∀ x ∈ l, compare (number x) (number y) = .lt) :
    (∀ added c', (c.add y).commit = .ok (added, c') → Gathers (l ++ [y]) c') ∧
      ((∀ x ∈ l, ∀ s, name? x = some s → name? y ≠ some s) →
        ∃ c', (c.add y).commit = .ok (true, c')) := by
  have hnum : number (setEditable true y) = number y := LawfulComponent.number_setEditable true y
  have hlast : ∀ e ∈ c.draft.byNumber.toList, compare e.1 (number y) = .lt := by
    simpa [h.toList_eq] using hy
  have hfree : c.draft.byNumber.get? (number y) = none := by
    by_contra hne
    obtain ⟨x, hx⟩ := Option.ne_none_iff_exists'.1 hne
    have := hlast _ (SortedMap.mem_toList_iff.2 hx)
    simp [Std.ReflCmp.compare_self] at this
  constructor
  · intro added c' hadd
    obtain ⟨hcom, ⟨⟨x, hx⟩, -⟩ | hins⟩ := add_eq_ok hadd
    · rw [hnum, hfree] at hx
      cases hx
    · obtain ⟨-, hbyNumber, -⟩ := Index.insert_eq_ok hins
      refine ⟨hcom.trans h.committed_eq, Index.consistent_insert h.consistent hins, ?_⟩
      rw [hbyNumber, hnum, SortedMap.toList_insert_of_forall_lt _ hlast, h.toList_eq]
      simp
  · intro hname
    have hcontains : c.draft.byNumber.contains (number (setEditable true y)) = false := by
      rw [hnum, SortedMap.contains_eq_false_iff, hfree]
    have htaken : ∀ s, name? (setEditable true y) = some s → c.draft.byName.get? s = none := by
      intro s hs
      by_contra hne
      obtain ⟨n, hn⟩ := Option.ne_none_iff_exists'.1 hne
      obtain ⟨z, hz, hzs⟩ := (h.consistent.byName_iff s n).1 hn
      have hmem := SortedMap.mem_toList_iff.2 hz
      rw [h.toList_eq] at hmem
      obtain ⟨x, hx, he⟩ := List.mem_map.1 hmem
      cases he
      rw [LawfulComponent.name?_setEditable] at hs hzs
      exact hname x hx s hzs hs
    obtain ⟨ix, hix⟩ : ∃ ix, c.draft.insert (setEditable true y) = .ok (some ix) := by
      simp only [Index.insert, hcontains, Bool.false_eq_true, if_false]
      cases hs : name? (setEditable true y) with
      | none => exact ⟨_, rfl⟩
      | some s =>
        simp only [htaken s hs]
        exact ⟨_, rfl⟩
    exact ⟨c.withDraft ix, by simp only [Container.add, hix]; rfl⟩

private theorem Gathers.addAll {l l' : List T} {c : Container T} (h : Gathers l c)
    (hl : (l ++ l').Pairwise fun x y => compare (number x) (number y) = .lt) :
    (∀ c', c.addAll l' = .ok c' → Gathers (l ++ l') c') ∧
      ((l ++ l').Pairwise (fun x y => ∀ s, name? x = some s → name? y ≠ some s) →
        ∃ c', c.addAll l' = .ok c') := by
  induction l' generalizing l c with
  | nil =>
    refine ⟨fun c' hall => ?_, fun _ => ⟨c, rfl⟩⟩
    obtain rfl : c = c' := Except.ok.inj hall
    simpa using h
  | cons y l' ih =>
    have hadd := h.add fun x hx => (List.pairwise_append.1 hl).2.2 x hx y List.mem_cons_self
    rw [List.append_cons] at hl ⊢
    constructor
    · intro c' hall
      obtain ⟨added, c₁, hc₁, hall⟩ := addAll_cons_eq_ok_iff.1 hall
      exact (ih (hadd.1 added c₁ hc₁) hl).1 c' hall
    · intro hnames
      obtain ⟨c₁, hc₁⟩ := hadd.2 fun x hx =>
        (List.pairwise_append.1 (List.pairwise_append.1 hnames).1).2.2 x hx y List.mem_cons_self
      obtain ⟨c', hall⟩ := (ih (hadd.1 true c₁ hc₁) hl).2 hnames
      exact ⟨c', addAll_cons_eq_ok_iff.2 ⟨true, c₁, hc₁, hall⟩⟩

/-- A container without an edit buffer, with consistent names and frozen components. -/
structure Frozen (c : Container T) : Prop where
  buffer_eq : c.buffer = none
  consistent : c.committed.Consistent
  refreeze_eq : ∀ x ∈ c.components, refreeze x = x

omit [LawfulComponent T] in
theorem Frozen.view_eq {c : Container T} (h : c.Frozen) : c.view = c.committed := by
  simp [view, h.buffer_eq]

omit [LawfulComponent T] in
/-- A frozen container is determined by its components. -/
theorem Frozen.ext {c d : Container T} (hc : c.Frozen) (hd : d.Frozen)
    (h : c.components = d.components) : c = d := by
  have hcommitted : c.committed = d.committed := by
    refine Index.Consistent.ext hc.consistent hd.consistent (SortedMap.ext_toList ?_)
    rw [hc.consistent.toList_eq, hd.consistent.toList_eq, ← hc.view_eq, ← hd.view_eq]
    exact congrArg _ h
  have hbuffer : c.buffer = d.buffer := hc.buffer_eq.trans hd.buffer_eq.symm
  cases c
  cases d
  simp_all

/-- What has been added is frozen by consolidation. -/
theorem Gathers.frozen {l : List T} {c : Container T} (h : Gathers l c)
    (hidem : ∀ x : T, refreeze (refreeze x) = refreeze x) :
    c.consolidate.Frozen ∧ c.consolidate.components = l.map refreeze := by
  have hcommitted := committed_consolidate h.committed_eq
  have hcomponents : c.consolidate.components = l.map refreeze := by
    simp only [components, view, buffer_consolidate, Option.getD_none, hcommitted, Index.map,
      Index.components, SortedMap.values, SortedMap.mapValues, h.toList_eq, List.map_map]
    rfl
  refine ⟨⟨buffer_consolidate c, ?_, fun x hx => ?_⟩, hcomponents⟩
  · rw [hcommitted]
    exact Index.consistent_map h.consistent LawfulComponent.number_freeze
      LawfulComponent.name?_freeze
  · rw [hcomponents] at hx
    obtain ⟨y, -, rfl⟩ := List.mem_map.1 hx
    exact hidem y

omit [LawfulComponent T] in
private theorem ascending_of_mapM {f : T → StateT σ (Except Error) T} {c : Container T} {l : List T}
    {s s' : σ} (hc : c.view.Consistent) (hf : ∀ x y s₁ s₂, (f x).run s₁ = .ok (y, s₂) → number y = number x)
    (hl : (c.components.mapM f).run s = .ok (l, s')) :
    ([] ++ l).Pairwise fun x y => compare (number x) (number y) = Ordering.lt := by
  have hnumbers : l.map number = c.components.map number := map_eq_of_mapM_eq_ok hf hl
  rw [List.nil_append, ← List.pairwise_map (R := fun m n => compare m n = .lt), hnumbers,
    List.pairwise_map]
  exact hc.ascending

/-- A container with consistent names is built anew of what its components become, if they keep
their numbers. -/
theorem frozen_of_rebuild {f : T → StateT σ (Except Error) T} {c c' : Container T} {s s' : σ}
    (hc : c.view.Consistent) (hidem : ∀ x : T, refreeze (refreeze x) = refreeze x)
    (hf : ∀ x y s₁ s₂, (f x).run s₁ = .ok (y, s₂) → number y = number x)
    (h : (c.rebuild f).run s = .ok (c', s')) :
    c'.Frozen ∧ ∃ l, (c.components.mapM f).run s = .ok (l, s') ∧ c'.components = l.map refreeze := by
  obtain ⟨l, r, hl, hall, rfl⟩ := rebuild_eq_ok_iff.1 h
  have hadd := gathers_nil.addAll (ascending_of_mapM hc hf hl)
  obtain ⟨hfrozen, hcomponents⟩ := (hadd.1 r hall).frozen hidem
  exact ⟨hfrozen, l, hl, hcomponents⟩

/-- It can be built anew unless two components come to have the same name. -/
theorem rebuild_ok_iff {f : T → StateT σ (Except Error) T} {c : Container T} {l : List T} {s s' : σ}
    (hc : c.view.Consistent) (hidem : ∀ x : T, refreeze (refreeze x) = refreeze x)
    (hf : ∀ x y s₁ s₂, (f x).run s₁ = .ok (y, s₂) → number y = number x)
    (hl : (c.components.mapM f).run s = .ok (l, s')) :
    (∃ c', (c.rebuild f).run s = .ok (c', s')) ↔
      l.Pairwise fun x y => ∀ t, name? x = some t → name? y ≠ some t := by
  constructor
  · rintro ⟨c', h⟩
    obtain ⟨hfrozen, l', hl', hcomponents⟩ := frozen_of_rebuild hc hidem hf h
    obtain ⟨rfl, -⟩ := Prod.mk.inj (Except.ok.inj (hl.symm.trans hl'))
    have hdistinct := hfrozen.consistent.names_distinct
    rw [← hfrozen.view_eq] at hdistinct
    have hmap : (l.map refreeze).Pairwise fun x y => ∀ t, name? x = some t → name? y ≠ some t :=
      hcomponents ▸ hdistinct
    simpa only [List.pairwise_map, name?_refreeze] using hmap
  · intro hnames
    obtain ⟨r, hall⟩ := (gathers_nil.addAll (ascending_of_mapM hc hf hl)).2 hnames
    exact ⟨_, rebuild_eq_ok_iff.2 ⟨l, r, hl, hall, rfl⟩⟩

/-- A frozen container whose components do not change is built as it was. -/
theorem Frozen.rebuild_eq_self {f : T → StateT σ (Except Error) T} {c : Container T} {s s' : σ}
    (hc : c.Frozen) (hidem : ∀ x : T, refreeze (refreeze x) = refreeze x)
    (h : (c.components.mapM f).run s = .ok (c.components, s')) :
    (c.rebuild f).run s = .ok (c, s') := by
  have hcons : c.view.Consistent := hc.view_eq ▸ hc.consistent
  have hasc : ([] ++ c.components).Pairwise fun x y => compare (number x) (number y) = Ordering.lt :=
    hcons.ascending
  have hadd := gathers_nil.addAll hasc
  obtain ⟨r, hall⟩ := hadd.2 hcons.names_distinct
  obtain ⟨hr, hcomponents⟩ := (hadd.1 r hall).frozen hidem
  refine rebuild_eq_ok_iff.2 ⟨c.components, r, h, hall, hr.ext hc ?_⟩
  rw [hcomponents, List.nil_append, List.map_congr_left hc.refreeze_eq, List.map_id']

end ChronicleMeta.Container
