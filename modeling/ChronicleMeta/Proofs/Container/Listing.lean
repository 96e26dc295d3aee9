import ChronicleMeta.Proofs.Container.Draft

/-!
Components made from a list of entries, each of which has a number. Where an entry takes the place of
one before it that has its number, only the last entry of each number is left.
-/

namespace ChronicleMeta

variable {E T : Type} {numberOf : E → UInt32} {describes : E → T → Prop} {entries : List E}
  {get get' : UInt32 → Option T} {e : E} {x : T} {n : UInt32}

/-- The last entry of the number. -/
def lastOf (numberOf : E → UInt32) (entries : List E) (n : UInt32) : Option E :=
  entries.reverse.find? (numberOf · = n)

theorem lastOf_concat (numberOf : E → UInt32) (entries : List E) (e : E) (n : UInt32) :
    lastOf numberOf (entries ++ [e]) n = if n = numberOf e then some e else lastOf numberOf entries n := by
  rw [lastOf, List.reverse_append, List.reverse_singleton, List.singleton_append, List.find?_cons]
  by_cases hn : n = numberOf e
  · simp [hn]
  · simp [hn, Ne.symm hn, lastOf]

theorem lastOf_eq_none_iff : lastOf numberOf entries n = none ↔ n ∉ entries.map numberOf := by
  simp only [lastOf, List.find?_eq_none, List.mem_reverse, decide_eq_true_eq, List.mem_map, not_exists,
    not_and]

/-- The last entry of a number that no other entry has is the only one. -/
theorem lastOf_of_nodup (h : (entries.map numberOf).Nodup) (he : e ∈ entries) :
    lastOf numberOf entries (numberOf e) = some e := by
  cases hlast : lastOf numberOf entries (numberOf e) with
  | none => exact absurd (List.mem_map_of_mem he) (lastOf_eq_none_iff.1 hlast)
  | some e' =>
    have hmem : e' ∈ entries := List.mem_reverse.1 (List.mem_of_find?_eq_some hlast)
    have hnumber : numberOf e' = numberOf e := by simpa using List.find?_some hlast
    rw [List.inj_on_of_nodup_map h hmem he hnumber]

/-- Under each number is what the last entry of the number describes, and nothing without an entry. -/
def LastOfEach (numberOf : E → UInt32) (describes : E → T → Prop) (entries : List E)
    (get : UInt32 → Option T) : Prop :=
  ∀ n, Option.Rel describes (lastOf numberOf entries n) (get n)

/-- The entries have numbers of their own, and under each is what the entry describes. There is nothing
else. -/
structure OneOfEach (numberOf : E → UInt32) (describes : E → T → Prop) (entries : List E)
    (get : UInt32 → Option T) : Prop where
  distinct : (entries.map numberOf).Nodup
  listed : ∀ e ∈ entries, ∃ x, get (numberOf e) = some x ∧ describes e x
  only : ∀ n x, get n = some x → ∃ e ∈ entries, numberOf e = n

theorem lastOfEach_nil (h : ∀ n, get n = none) : LastOfEach numberOf describes [] get := by
  intro n
  rw [h]
  exact .none

theorem LastOfEach.concat (h : LastOfEach numberOf describes entries get) (hx : describes e x)
    (hget : ∀ n, get' n = if n = numberOf e then some x else get n) :
    LastOfEach numberOf describes (entries ++ [e]) get' := by
  intro n
  rw [lastOf_concat, hget]
  split_ifs
  · exact .some hx
  · exact h n

theorem LastOfEach.eq_none_iff (h : LastOfEach numberOf describes entries get) :
    get n = none ↔ n ∉ entries.map numberOf := by
  have hn := h n
  rw [← lastOf_eq_none_iff]
  generalize lastOf numberOf entries n = last, get n = found at hn
  cases hn <;> simp

theorem LastOfEach.oneOfEach (h : LastOfEach numberOf describes entries get)
    (hdistinct : (entries.map numberOf).Nodup) : OneOfEach numberOf describes entries get where
  distinct := hdistinct
  listed e he := by
    have hn := h (numberOf e)
    rw [lastOf_of_nodup hdistinct he] at hn
    generalize get (numberOf e) = found at hn ⊢
    cases hn with
    | some hx => exact ⟨_, rfl, hx⟩
  only n x hx := by
    by_contra hnone
    have hmem : n ∉ entries.map numberOf := by simpa using hnone
    cases hx.symm.trans (h.eq_none_iff.2 hmem)

theorem LastOfEach.map {U : Type} {describes' : E → U → Prop}
    (h : LastOfEach numberOf describes entries get)
    (f : T → U) (hf : ∀ e x, describes e x → describes' e (f x)) :
    LastOfEach numberOf describes' entries fun n => (get n).map f := by
  intro n
  have hn := h n
  dsimp only
  generalize lastOf numberOf entries n = last, get n = found at hn ⊢
  cases hn with
  | none => exact .none
  | some hx => exact .some (hf _ _ hx)

namespace Container

open Component

variable [Component T] {c c' : Container T} {y : T}

/-- With nothing committed, a component that is added is found under its number. -/
theorem get?_of_add (hc : c.committed = {}) (h : (c.add y).commit = .ok (true, c')) :
    c'.committed = {} ∧ c.get? (number (setEditable true y)) = none ∧
      ∀ n, c'.get? n =
        if n = number (setEditable true y) then some (setEditable true y) else c.get? n := by
  obtain ⟨hres, rfl⟩ := Outcome.commit_eq_ok_iff.1 h
  obtain ⟨ix, hins, hstate⟩ := exists_insert_of_add hres
  obtain ⟨hfree, -, -⟩ := Index.insert_eq_ok hins
  have hcommitted : (c.withDraft ix).committed = {} := hc
  rw [hstate]
  refine ⟨hc, by rw [get?_eq_draft hc, hfree], fun n => ?_⟩
  rw [get?_eq_draft hcommitted, get?_eq_draft hc, draft_withDraft, Index.get?_of_insert hins]

/-- With nothing committed, a number that leads to nothing is free. -/
theorem added_of_free (hc : c.committed = {}) (hfree : c.get? (number (setEditable true y)) = none)
    {added : Bool} (h : (c.add y).commit = .ok (added, c')) : added = true := by
  obtain ⟨hres, rfl⟩ := Outcome.commit_eq_ok_iff.1 h
  unfold add at hres
  split at hres
  next => cases hres
  next hins =>
    obtain ⟨x, hx⟩ := Index.insert_eq_ok_none hins
    rw [get?_eq_draft hc] at hfree
    cases hfree.symm.trans hx
  next => exact (Except.ok.inj hres).symm

/-- With nothing committed, a removal is found under its number, whatever there was before. -/
theorem get?_of_erase [LawfulComponent T] (hc : c.committed = {}) {m : UInt32} {u : Unit}
    (h : (c.erase m).commit = .ok (u, c')) :
    c'.committed = {} ∧ ∀ n, c'.get? n = if n = m then some (erasing m) else c.get? n := by
  obtain ⟨-, rfl⟩ := Outcome.commit_eq_ok_iff.1 h
  obtain ⟨ix, hins, herase⟩ := erase_eq c m
  have hcommitted : (c.withDraft ix).committed = {} := hc
  rw [herase]
  refine ⟨hc, fun n => ?_⟩
  rw [Outcome.ok, get?_eq_draft hcommitted, get?_eq_draft hc, draft_withDraft, Index.get?_of_insert hins,
    LawfulComponent.number_erasing, Index.get?_remove]
  split_ifs <;> rfl

/-- A container to which a component has been added for each of the entries, and nothing else. -/
structure Lists (numberOf : E → UInt32) (describes : E → T → Prop) (entries : List E) (c : Container T) :
    Prop where
  committed_eq : c.committed = {}
  distinct : (entries.map numberOf).Nodup
  lastOfEach : LastOfEach numberOf describes entries c.get?

omit [Component T] in
theorem lists_nil : Lists numberOf describes [] ({} : Container T) where
  committed_eq := rfl
  distinct := List.nodup_nil
  lastOfEach := lastOfEach_nil fun _ => rfl

theorem Lists.add [LawfulComponent T] (h : c.Lists numberOf describes entries)
    (hadd : (c.add y).commit = .ok (true, c')) (hnumber : number y = numberOf e)
    (hy : describes e (setEditable true y)) : c'.Lists numberOf describes (entries ++ [e]) := by
  obtain ⟨hcommitted, hfree, hget⟩ := get?_of_add h.committed_eq hadd
  rw [LawfulComponent.number_setEditable, hnumber] at hfree
  simp only [LawfulComponent.number_setEditable, hnumber] at hget
  refine ⟨hcommitted, ?_, h.lastOfEach.concat hy hget⟩
  rw [List.map_append, List.map_singleton]
  exact List.nodup_append.2 ⟨h.distinct, List.nodup_singleton _, by
    rintro n hn _ hm rfl
    exact h.lastOfEach.eq_none_iff.1 hfree (List.mem_singleton.1 hm ▸ hn)⟩

/-- What has been added is frozen by consolidation. -/
theorem Lists.consolidate {describes' : E → T → Prop} (h : c.Lists numberOf describes entries)
    (hfreeze : ∀ e x, describes e x → describes' e (freeze x)) :
    OneOfEach numberOf describes' entries c.consolidate.get? := by
  have hget : c.consolidate.get? = fun n => (c.get? n).map freeze := by
    funext n
    rw [get?_consolidate h.committed_eq, get?_eq_draft h.committed_eq]
  rw [hget]
  exact (h.lastOfEach.map freeze hfreeze).oneOfEach h.distinct

end Container

end ChronicleMeta
