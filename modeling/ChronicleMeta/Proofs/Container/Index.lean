import ChronicleMeta.Container.Index
import ChronicleMeta.Proofs.Outcome
import ChronicleMeta.Proofs.SortedMap

/-! The names of an index lead to the components that have them, after every operation. -/

namespace ChronicleMeta.Index

open Component

variable {T : Type} [Component T]

/-- Each component is under its own number, and each name leads to the component that has it. -/
structure Consistent (ix : Index T) : Prop where
  number_eq : ∀ n x, ix.byNumber.get? n = some x → number x = n
  /-- A name leads to a number exactly if the component of the number has it. -/
  byName_iff : ∀ s n,
    ix.byName.get? s = some n ↔ ∃ x, ix.byNumber.get? n = some x ∧ name? x = some s

/-- A name leads to a number exactly if the component of the number has it, whatever number the component
says it has. -/
def Named (ix : Index T) : Prop :=
  ∀ s n, ix.byName.get? s = some n ↔ ∃ x, ix.byNumber.get? n = some x ∧ name? x = some s

theorem Consistent.named {ix : Index T} (h : ix.Consistent) : ix.Named := h.byName_iff

theorem named_empty : Named ({} : Index T) := by simp [Named]

theorem consistent_empty : Consistent ({} : Index T) where
  number_eq := by simp
  byName_iff := named_empty

/-- Where all components have names there are as many names as components. -/
theorem Named.size_eq {ix : Index T} (h : ix.Named) (hall : ∀ x ∈ ix.components, (name? x).isSome) :
    ix.byName.size = ix.byNumber.size := by
  -- the numbers that names lead to are those there are, each of them once
  have hnodup : (ix.byName.toList.map Prod.snd).Nodup := by
    refine (List.nodup_map_iff_inj_on (SortedMap.nodup_keys ix.byName).of_map).2 ?_
    intro e he e' he' heq
    obtain ⟨x, hx, hs⟩ := (h e.1 e.2).1 (SortedMap.mem_toList_iff.1 he)
    obtain ⟨x', hx', hs'⟩ := (h e'.1 e'.2).1 (SortedMap.mem_toList_iff.1 he')
    obtain rfl : x = x' := Option.some.inj (hx.symm.trans (heq ▸ hx'))
    exact Prod.ext (Option.some.inj (hs.symm.trans hs')) heq
  have hmem : ∀ n, n ∈ ix.byName.toList.map Prod.snd ↔ n ∈ ix.byNumber.toList.map Prod.fst := by
    intro n
    constructor
    · intro hn
      obtain ⟨e, he, rfl⟩ := List.mem_map.1 hn
      obtain ⟨x, hx, -⟩ := (h e.1 e.2).1 (SortedMap.mem_toList_iff.1 he)
      exact List.mem_map.2 ⟨(e.2, x), SortedMap.mem_toList_iff.2 hx, rfl⟩
    · intro hn
      obtain ⟨e, he, rfl⟩ := List.mem_map.1 hn
      have hx := SortedMap.mem_toList_iff.1 he
      obtain ⟨s, hs⟩ := Option.isSome_iff_exists.1 (hall e.2 (SortedMap.mem_values_iff.2 ⟨e.1, hx⟩))
      exact List.mem_map.2 ⟨(s, e.1), SortedMap.mem_toList_iff.2 ((h s e.1).2 ⟨e.2, hx, hs⟩), rfl⟩
  have hperm := (List.perm_ext_iff_of_nodup hnodup (SortedMap.nodup_keys ix.byNumber)).2 hmem
  simpa [SortedMap.size] using hperm.length_eq

/-- No two components of a consistent index share a name. -/
theorem Consistent.eq_of_name {ix : Index T} (h : ix.Consistent) {m n : UInt32} {x y : T} {s : String}
    (hm : ix.byNumber.get? m = some x) (hn : ix.byNumber.get? n = some y)
    (hx : name? x = some s) (hy : name? y = some s) : m = n := by
  have h1 := (h.byName_iff s m).2 ⟨x, hm, hx⟩
  have h2 := (h.byName_iff s n).2 ⟨y, hn, hy⟩
  exact Option.some.inj (h1.symm.trans h2)

/-- A consistent index is determined by its components. -/
theorem Consistent.ext {ix iy : Index T} (hx : ix.Consistent) (hy : iy.Consistent)
    (h : ix.byNumber = iy.byNumber) : ix = iy := by
  have hnames : ix.byName = iy.byName := SortedMap.ext_get? fun s => Option.ext fun n => by
    rw [hx.byName_iff, hy.byName_iff, h]
  cases ix; cases iy
  simp_all

theorem Consistent.toList_eq {ix : Index T} (h : ix.Consistent) :
    ix.byNumber.toList = ix.components.map fun x => (number x, x) := by
  have hkey : ∀ e ∈ ix.byNumber.toList, (number e.2, e.2) = e := fun ⟨n, x⟩ he => by
    rw [h.number_eq n x (SortedMap.mem_toList_iff.1 he)]
  rw [components, SortedMap.values, List.map_map]
  exact (List.map_congr_left hkey).trans (List.map_id _) |>.symm

/-- The components are in ascending order of their numbers. -/
theorem Consistent.ascending {ix : Index T} (h : ix.Consistent) :
    ix.components.Pairwise fun x y => compare (number x) (number y) = .lt := by
  have hpairs := ix.byNumber.ascending
  rw [h.toList_eq] at hpairs
  exact List.pairwise_map.1 hpairs

/-- The components have names of their own. -/
theorem Consistent.names_distinct {ix : Index T} (h : ix.Consistent) :
    ix.components.Pairwise fun x y => ∀ s, name? x = some s → name? y ≠ some s := by
  refine h.ascending.imp_of_mem fun {x y} hx hy hlt s hxs hys => ?_
  obtain ⟨m, hm⟩ := SortedMap.mem_values_iff.1 hx
  obtain ⟨n, hn⟩ := SortedMap.mem_values_iff.1 hy
  rw [h.number_eq m x hm, h.number_eq n y hn, h.eq_of_name hm hn hxs hys] at hlt
  simp at hlt

theorem Named.map {ix : Index T} (h : ix.Named) {f : T → T} (hname : ∀ x, name? (f x) = name? x) :
    (ix.map f).Named := by
  intro s n
  simp only [Index.map, SortedMap.get?_mapValues, Option.map_eq_some_iff, h s n]
  constructor
  · rintro ⟨x, hx, hs⟩
    exact ⟨f x, ⟨x, hx, rfl⟩, (hname x).trans hs⟩
  · rintro ⟨_, ⟨x, hx, rfl⟩, hs⟩
    exact ⟨x, hx, (hname x).symm.trans hs⟩

theorem consistent_map {ix : Index T} (h : ix.Consistent) {f : T → T}
    (hnumber : ∀ x, number (f x) = number x) (hname : ∀ x, name? (f x) = name? x) :
    (ix.map f).Consistent where
  number_eq n x hx := by
    simp only [map, SortedMap.get?_mapValues, Option.map_eq_some_iff] at hx
    obtain ⟨y, hy, rfl⟩ := hx
    rw [hnumber, h.number_eq n y hy]
  byName_iff := h.named.map hname

/-- All that an insertion can do. -/
theorem insert_eq_ok {ix ix' : Index T} {c : T} (h : ix.insert c = .ok (some ix')) :
    ix.byNumber.get? (number c) = none ∧ ix'.byNumber = ix.byNumber.insert (number c) c ∧
      ((name? c = none ∧ ix'.byName = ix.byName) ∨
        ∃ s, name? c = some s ∧ ix.byName.get? s = none ∧
          ix'.byName = ix.byName.insert s (number c)) := by
  unfold insert at h
  split_ifs at h with hc
  · simp at h
  have hnone := SortedMap.contains_eq_false_iff.1 (Bool.eq_false_iff.2 hc)
  split at h
  next hname =>
    cases h
    exact ⟨hnone, rfl, .inl ⟨hname, rfl⟩⟩
  next s hname =>
    split at h
    next => cases h
    next hs =>
      cases h
      exact ⟨hnone, rfl, .inr ⟨s, hname, hs, rfl⟩⟩

theorem insert_eq_ok_none {ix : Index T} {c : T} (h : ix.insert c = .ok none) :
    ∃ x, ix.byNumber.get? (number c) = some x := by
  unfold insert at h
  split_ifs at h with hc
  · exact SortedMap.contains_iff.1 hc
  · split at h
    · cases h
    · split at h <;> cases h

theorem get?_of_insert {ix ix' : Index T} {c : T} (h : ix.insert c = .ok (some ix')) (n : UInt32) :
    ix'.byNumber.get? n = if n = number c then some c else ix.byNumber.get? n := by
  obtain ⟨-, hnum, -⟩ := insert_eq_ok h
  rw [hnum, SortedMap.get?_insert]

theorem Named.insert {ix ix' : Index T} {c : T} (h : ix.Named) (hins : ix.insert c = .ok (some ix')) :
    ix'.Named := by
  obtain ⟨hnone, -, hname⟩ := insert_eq_ok hins
  intro s n
  have hold : ix.byName.get? s = some n →
      n ≠ number c ∧ ∃ x, ix.byNumber.get? n = some x ∧ name? x = some s := fun hs => by
    obtain ⟨x, hx, hxs⟩ := (h s n).1 hs
    exact ⟨fun e => by simp [e, hnone] at hx, x, hx, hxs⟩
  rw [get?_of_insert hins]
  by_cases hn : n = number c
  · rcases hname with ⟨hc, hbn⟩ | ⟨s', hc, hfree, hbn⟩
    · rw [hbn]
      simp only [hn, if_true, Option.some.injEq, exists_eq_left', hc, reduceCtorEq, iff_false]
      exact fun hs => (hold (hn ▸ hs)).1 hn
    · rw [hbn, SortedMap.get?_insert]
      simp only [hn, if_true, Option.some.injEq, exists_eq_left', hc]
      split_ifs with hs
      · simp [hs]
      · exact ⟨fun hs' => absurd hn (hold (hn ▸ hs')).1, fun e => absurd e.symm hs⟩
  · rw [if_neg hn, ← h s n]
    rcases hname with ⟨-, hbn⟩ | ⟨s', hc, hfree, hbn⟩
    · rw [hbn]
    · rw [hbn, SortedMap.get?_insert]
      split_ifs with hs
      · simp [hs, hfree, Ne.symm hn]
      · rfl

theorem consistent_insert {ix ix' : Index T} {c : T} (h : ix.Consistent)
    (hins : ix.insert c = .ok (some ix')) : ix'.Consistent where
  number_eq n x hx := by
    rw [get?_of_insert hins] at hx
    split_ifs at hx with hn
    · rw [hn, Option.some.inj hx]
    · exact h.number_eq n x hx
  byName_iff := h.named.insert hins

theorem get?_remove (ix : Index T) (n k : UInt32) :
    (ix.remove n).byNumber.get? k = if k = n then none else ix.byNumber.get? k := by
  unfold remove
  split
  next h =>
    split_ifs with hk
    · rw [hk, h]
    · rfl
  next => exact SortedMap.get?_erase _ _ _

theorem Named.remove {ix : Index T} (h : ix.Named) (n : UInt32) : (ix.remove n).Named := by
  intro s k
  cases hc : ix.byNumber.get? n with
  | none =>
    have : ix.remove n = ix := by simp [Index.remove, hc]
    rw [this, h s k]
  | some c =>
    have hname : (ix.remove n).byName.get? s =
        if name? c = some s then none else ix.byName.get? s := by
      simp only [Index.remove, hc]
      cases hs' : name? c with
      | none => simp
      | some s' =>
        have hs : ix.byName.get? s' = some n := (h s' n).2 ⟨c, hc, hs'⟩
        simp [hs, SortedMap.get?_erase, eq_comm]
    rw [hname, get?_remove]
    by_cases hk : k = n
    · subst hk
      simp only [if_true, reduceCtorEq, false_and, exists_false, iff_false]
      split_ifs with hs
      · simp
      · rw [h s k]
        rintro ⟨x, hx, hxs⟩
        exact hs (Option.some.inj (hc.symm.trans hx) ▸ hxs)
    · rw [if_neg hk, ← h s k]
      split_ifs with hs
      · have := (h s n).2 ⟨c, hc, hs⟩
        simp [this, Ne.symm hk]
      · rfl

theorem consistent_remove {ix : Index T} (h : ix.Consistent) (n : UInt32) :
    (ix.remove n).Consistent where
  number_eq k x hx := by
    rw [get?_remove] at hx
    split_ifs at hx
    exact h.number_eq k x hx
  byName_iff := h.named.remove n

/-- All that a change of a component can do. -/
theorem modify_eq_ok {α : Type} {ix ix' : Index T} {n : UInt32} {f : T → Except Error (α × T)} {a : α}
    (h : ix.modify n f = .ok (some (a, ix'))) :
    ∃ x y, ix.byNumber.get? n = some x ∧ f x = .ok (a, y) ∧
      ix.rename n (name? x) (name? y) = .ok ix'.byName ∧
      ix'.byNumber = ix.byNumber.insert n y := by
  unfold modify at h
  split at h
  next => simp at h
  next x hx =>
    obtain ⟨⟨b, y⟩, hf, h⟩ := bind_eq_ok_iff.1 h
    obtain ⟨names, hnames, h⟩ := bind_eq_ok_iff.1 h
    simp only [pure, Except.pure, Except.ok.injEq, Option.some.injEq, Prod.mk.injEq] at h
    obtain ⟨rfl, rfl⟩ := h
    exact ⟨x, y, hx, hf, hnames, rfl⟩

/-- A new name leads to the number, once it is known that it leads to no other component. -/
theorem enter_eq_ok {ix : Index T} {n : UInt32} {new : Option String}
    {kept names : SortedMap String UInt32}
    (h : (match new with
      | none => .ok kept
      | some name => match ix.byName.get? name with
        | some owner =>
          if owner = n then .ok (kept.insert name n) else .error (nameTaken T name owner n)
        | none => .ok (kept.insert name n)) = Except.ok names) :
    (∀ s, names.get? s = if new = some s then some n else kept.get? s) ∧
      ∀ s, new = some s → ∀ m, ix.byName.get? s = some m → m = n := by
  cases new with
  | none =>
    cases h
    exact ⟨fun s => by simp, by simp⟩
  | some name =>
    dsimp only at h
    cases ho : ix.byName.get? name with
    | none =>
      simp only [ho] at h
      cases h
      exact ⟨fun s => by simp [SortedMap.get?_insert, eq_comm], by simp [ho]⟩
    | some owner =>
      simp only [ho] at h
      split_ifs at h with hown
      cases h
      exact ⟨fun s => by simp [SortedMap.get?_insert, eq_comm], by simp [ho, hown]⟩

/-- What a change of name does to the names: the old name leads nowhere, and the new one, which no
other component has, to the number. -/
theorem rename_eq_ok {ix : Index T} {n : UInt32} {old new : Option String}
    {names : SortedMap String UInt32} (h : ix.rename n old new = .ok names) (hne : new ≠ old) :
    (∀ s, names.get? s = if new = some s then some n else if old = some s then none
      else ix.byName.get? s) ∧
      ∀ s, new = some s → ∀ m, ix.byName.get? s = some m → m = n := by
  unfold rename at h
  rw [if_neg hne] at h
  cases old with
  | none =>
    obtain ⟨hget, hfree⟩ := enter_eq_ok h
    exact ⟨fun s => by simpa using hget s, hfree⟩
  | some name =>
    obtain ⟨hget, hfree⟩ := enter_eq_ok h
    refine ⟨fun s => ?_, hfree⟩
    rw [hget, SortedMap.get?_erase]
    simp [eq_comm]

theorem Named.modify {α : Type} {ix ix' : Index T} (h : ix.Named) {n : UInt32}
    {f : T → Except Error (α × T)} {a : α} (hm : ix.modify n f = .ok (some (a, ix'))) : ix'.Named := by
  obtain ⟨x, y, hx, -, hren, hnum⟩ := modify_eq_ok hm
  intro s k
  have hold : name? x = some s → ix.byName.get? s = some n := fun hs => (h s n).2 ⟨x, hx, hs⟩
  rw [hnum, SortedMap.get?_insert]
  by_cases hne : name? y = name? x
  · have hnames : ix'.byName = ix.byName := by
      simp only [rename, hne, if_true, Except.ok.injEq] at hren
      exact hren.symm
    rw [hnames, h s k]
    by_cases hk : k = n
    · simp [hk, hx, hne]
    · simp [hk]
  · obtain ⟨hnames, hfree⟩ := rename_eq_ok hren hne
    rw [hnames]
    by_cases hk : k = n
    · subst hk
      simp only [if_true, Option.some.injEq, exists_eq_left']
      split_ifs with h1 h2
      · simp [h1]
      · simp [h1]
      · refine iff_of_false (fun hs => ?_) h1
        obtain ⟨z, hz, hzs⟩ := (h s k).1 hs
        exact h2 (Option.some.inj (hx.symm.trans hz) ▸ hzs)
    · rw [if_neg hk, ← h s k]
      split_ifs with h1 h2
      · exact iff_of_false (fun e => hk (Option.some.inj e).symm) fun hs => hk (hfree s h1 k hs)
      · rw [hold h2]
        exact iff_of_false (by simp) fun e => hk (Option.some.inj e).symm
      · rfl

theorem consistent_modify {α : Type} {ix ix' : Index T} (h : ix.Consistent) {n : UInt32}
    {f : T → Except Error (α × T)} {a : α} (hm : ix.modify n f = .ok (some (a, ix')))
    (hf : ∀ x b y, f x = .ok (b, y) → number y = number x) : ix'.Consistent where
  number_eq k z hz := by
    obtain ⟨x, y, hx, hfx, -, hnum⟩ := modify_eq_ok hm
    rw [hnum, SortedMap.get?_insert] at hz
    split_ifs at hz with hk
    · rw [← Option.some.inj hz, hf x a y hfx, hk, h.number_eq n x hx]
    · exact h.number_eq k z hz
  byName_iff := h.named.modify hm

/-- A component without a name can be inserted, or its number is taken. -/
theorem insert_ok_of_name?_eq_none (ix : Index T) {c : T} (hc : name? c = none) :
    ∃ o, ix.insert c = .ok o := by
  unfold insert
  split_ifs
  · exact ⟨none, rfl⟩
  · rw [hc]
    exact ⟨_, rfl⟩

theorem rename_ok_iff {ix : Index T} {n : UInt32} {old new : Option String} :
    (∃ names, ix.rename n old new = .ok names) ↔
      new = old ∨ ∀ s, new = some s → ∀ m, ix.byName.get? s = some m → m = n := by
  by_cases hne : new = old
  · simp [rename, hne]
  constructor
  · rintro ⟨names, hnames⟩
    exact .inr (rename_eq_ok hnames hne).2
  · intro hfree
    have hfree := hfree.resolve_left hne
    unfold rename
    rw [if_neg hne]
    cases new with
    | none => exact ⟨_, rfl⟩
    | some name =>
      dsimp only
      cases ho : ix.byName.get? name with
      | none => exact ⟨_, rfl⟩
      | some owner =>
        dsimp only
        rw [if_pos (hfree name rfl owner ho)]
        exact ⟨_, rfl⟩

/-- A change of a component succeeds exactly if no other component has the name that results. -/
theorem modify_ok_iff {α : Type} {ix : Index T} (h : ix.Consistent) {n : UInt32} {x : T}
    (hx : ix.byNumber.get? n = some x) {f : T → Except Error (α × T)} :
    (∃ r, ix.modify n f = .ok r) ↔ ∃ a y, f x = .ok (a, y) ∧
      ∀ s, name? y = some s → ∀ m z, ix.byNumber.get? m = some z → name? z = some s → m = n := by
  have hrename : ∀ y : T, (∃ names, ix.rename n (name? x) (name? y) = .ok names) ↔
      ∀ s, name? y = some s → ∀ m z, ix.byNumber.get? m = some z → name? z = some s → m = n := by
    intro y
    rw [rename_ok_iff]
    constructor
    · rintro (hsame | hfree) s hs m z hz hzs
      · exact h.eq_of_name hz hx hzs (hsame ▸ hs)
      · exact hfree s hs m ((h.byName_iff s m).2 ⟨z, hz, hzs⟩)
    · refine fun hfree => .inr fun s hs m hm => ?_
      obtain ⟨z, hz, hzs⟩ := (h.byName_iff s m).1 hm
      exact hfree s hs m z hz hzs
  unfold modify
  rw [hx]
  dsimp only
  constructor
  · rintro ⟨r, hr⟩
    obtain ⟨⟨a, y⟩, hf, hr⟩ := bind_eq_ok_iff.1 hr
    obtain ⟨names, hnames, -⟩ := bind_eq_ok_iff.1 hr
    exact ⟨a, y, hf, (hrename y).1 ⟨names, hnames⟩⟩
  · rintro ⟨a, y, hf, hfree⟩
    obtain ⟨names, hnames⟩ := (hrename y).2 hfree
    exact ⟨_, bind_eq_ok_iff.2 ⟨(a, y), hf, bind_eq_ok_iff.2 ⟨names, hnames, rfl⟩⟩⟩

end ChronicleMeta.Index
