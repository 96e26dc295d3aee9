import ChronicleMeta.Container.Basic
import ChronicleMeta.Proofs.Container.Index

/-! What the operations of a container do to its edit buffer. The committed state stays. -/

namespace ChronicleMeta.Container

open Component

variable {T : Type} [Component T]

@[simp] theorem draft_withDraft (c : Container T) (ix : Index T) : (c.withDraft ix).draft = ix := rfl

@[simp] theorem draft_edit (c : Container T) : c.edit.draft = c.draft := rfl

omit [Component T] in
@[simp] theorem committed_withDraft (c : Container T) (ix : Index T) :
    (c.withDraft ix).committed = c.committed := rfl

@[simp] theorem committed_edit (c : Container T) : c.edit.committed = c.committed := rfl

theorem draft_of_buffer {c : Container T} {ix : Index T} (h : c.buffer = some ix) : c.draft = ix := by
  rw [draft, h, Option.getD_some]

theorem get?_draft_eq_none_iff (c : Container T) (n : UInt32) :
    c.draft.byNumber.get? n = none ↔ c.contains n = false := by
  rw [contains, SortedMap.contains_eq_false_iff, view, draft]
  cases c.buffer <;> simp [Index.map]

/-- With nothing committed, what is seen is the edit buffer. -/
theorem get?_eq_draft {c : Container T} (h : c.committed = {}) (n : UInt32) :
    c.get? n = c.draft.byNumber.get? n := by
  unfold get? view draft
  rw [h]
  cases c.buffer <;> rfl

@[simp] theorem committed_delete (c : Container T) (n : UInt32) :
    (c.delete n).committed = c.committed := by
  unfold delete
  split_ifs <;> rfl

theorem get?_draft_delete (c : Container T) (n k : UInt32) :
    (c.delete n).draft.byNumber.get? k = if k = n then none else c.draft.byNumber.get? k := by
  unfold delete
  split_ifs with hc hk hk
  · simp [hk, Index.get?_remove]
  · simp [hk, Index.get?_remove]
  · rw [hk]
    exact (get?_draft_eq_none_iff c n).2 (by simpa using hc)
  · rfl

theorem consistent_draft_delete {c : Container T} (h : c.draft.Consistent) (n : UInt32) :
    (c.delete n).draft.Consistent := by
  unfold delete
  split_ifs
  · exact Index.consistent_remove h n
  · exact h

/-- An addition that succeeds finds the number taken, or inserts the component. -/
theorem add_eq_ok {c c' : Container T} {x : T} {added : Bool}
    (h : (c.add x).commit = .ok (added, c')) :
    c'.committed = c.committed ∧
      ((∃ y, c.draft.byNumber.get? (number (setEditable true x)) = some y) ∧ c'.draft = c.draft ∨
        c.draft.insert (setEditable true x) = .ok (some c'.draft)) := by
  obtain ⟨hres, rfl⟩ := Outcome.commit_eq_ok_iff.1 h
  unfold add at hres ⊢
  split at hres
  next => simp [Outcome.fail] at hres
  next hins => exact ⟨rfl, .inl ⟨Index.insert_eq_ok_none hins, rfl⟩⟩
  next ix hins => exact ⟨rfl, .inr hins⟩

theorem exists_insert_of_add {c : Container T} {x : T} (h : (c.add x).result = .ok true) :
    ∃ ix, c.draft.insert (setEditable true x) = .ok (some ix) ∧ (c.add x).state = c.withDraft ix := by
  revert h
  unfold add
  rcases c.draft.insert (setEditable true x) with e | _ | ix
  · exact nofun
  · exact nofun
  · exact fun _ => ⟨ix, rfl, rfl⟩

theorem erase_eq [LawfulComponent T] (c : Container T) (n : UInt32) :
    ∃ ix, (c.draft.remove n).insert (erasing n) = .ok (some ix) ∧ c.erase n = .ok (c.withDraft ix) () := by
  -- a removal can always be inserted: its number has become free, and it has no name that could be taken
  have hname : name? (erasing n : T) = none := LawfulComponent.name?_erasing n
  obtain ⟨o, ho⟩ := Index.insert_ok_of_name?_eq_none (c.draft.remove n) hname
  cases o with
  | none =>
    obtain ⟨x, hx⟩ := Index.insert_eq_ok_none ho
    rw [LawfulComponent.number_erasing, Index.get?_remove, if_pos rfl] at hx
    cases hx
  | some ix =>
    refine ⟨ix, ho, ?_⟩
    unfold erase
    dsimp only
    rw [ho]

@[simp] theorem result_erase [LawfulComponent T] (c : Container T) (n : UInt32) :
    (c.erase n).result = .ok () := by
  obtain ⟨ix, -, herase⟩ := erase_eq c n
  rw [herase]
  rfl

/-- A change that succeeds finds no component of the number, or changes it in the edit buffer. -/
theorem editComponent_eq_ok {α : Type} {c c' : Container T} {n : UInt32}
    {f : T → Except Error (α × T)} {o : Option α}
    (h : (c.editComponent n f).commit = .ok (o, c')) :
    c'.committed = c.committed ∧
      (c.draft.byNumber.get? n = none ∧ c'.draft = c.draft ∨
        ∃ a, o = some a ∧ c.draft.modify n f = .ok (some (a, c'.draft))) := by
  obtain ⟨hres, rfl⟩ := Outcome.commit_eq_ok_iff.1 h
  unfold editComponent at hres ⊢
  split at hres
  next => simp [Outcome.fail] at hres
  next hmod =>
    refine ⟨rfl, .inl ⟨?_, rfl⟩⟩
    unfold Index.modify at hmod
    split at hmod
    next hn => exact hn
    next x _ =>
      obtain ⟨⟨a, y⟩, -, hmod⟩ := bind_eq_ok_iff.1 hmod
      obtain ⟨names, -, hmod⟩ := bind_eq_ok_iff.1 hmod
      simp [pure, Except.pure] at hmod
  next a ix hmod =>
    refine ⟨rfl, .inr ⟨a, ?_, hmod⟩⟩
    simpa [Outcome.ok, eq_comm] using hres

theorem exists_modify_of_editComponent {α : Type} {c : Container T} {n : UInt32}
    {f : T → Except Error (α × T)} {a : α}
    (h : (c.editComponent n f).result = .ok (some a)) :
    ∃ ix, c.draft.modify n f = .ok (some (a, ix)) ∧ (c.editComponent n f).state = c.withDraft ix := by
  revert h
  unfold editComponent
  rcases c.draft.modify n f with e | _ | ⟨b, ix⟩
  · exact nofun
  · exact nofun
  · intro h
    obtain rfl : b = a := Option.some.inj (Except.ok.inj h)
    exact ⟨ix, rfl, rfl⟩

theorem add_ok_of_name?_eq_none (c : Container T) {x : T} (hx : name? (setEditable true x) = none) :
    ∃ added c', (c.add x).commit = .ok (added, c') := by
  obtain ⟨o, ho⟩ := Index.insert_ok_of_name?_eq_none c.draft hx
  unfold add
  rw [ho]
  cases o <;> exact ⟨_, _, rfl⟩

theorem editComponent_ok_iff {α : Type} {c : Container T} {n : UInt32} {f : T → Except Error (α × T)} :
    (∃ r, (c.editComponent n f).commit = .ok r) ↔ ∃ r, c.draft.modify n f = .ok r := by
  unfold editComponent
  rcases c.draft.modify n f with e | _ | ⟨a, ix⟩ <;>
    simp [Outcome.commit, Outcome.fail, Outcome.ok, Except.map]

@[simp] theorem buffer_consolidate (c : Container T) : c.consolidate.buffer = none := by
  unfold consolidate
  split
  · assumption
  · rfl

theorem consolidate_eq_self {c : Container T} (h : c.buffer = none) : c.consolidate = c := by
  unfold consolidate
  rw [h]

/-- Consolidation freezes the components, or leaves them as they are. -/
theorem components_consolidate (c : Container T) :
    c.consolidate.components = c.components ∨
      c.consolidate.components = c.components.map freeze := by
  cases hb : c.buffer with
  | none => exact .inl (by rw [consolidate_eq_self hb])
  | some ix =>
    refine .inr ?_
    simp [consolidate, components, view, hb, Index.components, Index.map, SortedMap.values,
      SortedMap.mapValues]

/-- The contents of a container with nothing committed before, after its consolidation. -/
theorem committed_consolidate {c : Container T} (h : c.committed = {}) :
    c.consolidate.committed = c.draft.map freeze := by
  unfold consolidate draft
  cases c.buffer with
  | none => exact h.trans (by simp [h, Index.map, SortedMap.mapValues]; rfl)
  | some ix => rfl

theorem get?_consolidate {c : Container T} (h : c.committed = {}) (n : UInt32) :
    c.consolidate.get? n = (c.draft.byNumber.get? n).map freeze := by
  simp [get?, view, committed_consolidate h, Index.map]

theorem components_eq_nil_iff {c : Container T} :
    c.components = [] ↔ ∀ n, c.draft.byNumber.get? n = none := by
  simp only [get?_draft_eq_none_iff, contains, SortedMap.contains_eq_false_iff]
  constructor
  · intro h n
    rw [Option.eq_none_iff_forall_ne_some]
    intro x hx
    have hmem : x ∈ c.components := SortedMap.mem_values_iff.2 ⟨n, hx⟩
    rw [h] at hmem
    cases hmem
  · intro h
    rw [List.eq_nil_iff_forall_not_mem]
    intro x hx
    obtain ⟨n, hn⟩ := SortedMap.mem_values_iff.1 hx
    cases (h n).symm.trans hn

theorem components_edit_of_nil {c : Container T} (h : c.components = []) : c.edit.components = [] := by
  rw [components_eq_nil_iff, draft_edit]
  exact components_eq_nil_iff.1 h

theorem components_consolidate_of_nil {c : Container T} (h : c.components = []) :
    c.consolidate.components = [] := by
  rcases components_consolidate c with hsame | hfrozen
  · exact hsame.trans h
  · rw [hfrozen, h, List.map_nil]

theorem delete_of_nil {c : Container T} (h : c.components = []) (n : UInt32) : c.delete n = c := by
  have hout : c.contains n = false := (get?_draft_eq_none_iff c n).1 (components_eq_nil_iff.1 h n)
  rw [delete, hout]
  rfl

/-- There is nothing to change. -/
theorem editComponent_of_nil {α : Type} {c : Container T} (h : c.components = []) (n : UInt32)
    (f : T → Except Error (α × T)) : c.editComponent n f = .ok c.edit none := by
  have hmodify : c.draft.modify n f = .ok none := by
    rw [Index.modify, components_eq_nil_iff.1 h n]
  rw [editComponent, hmodify]

/-- An addition that does not succeed leaves a container without components. -/
theorem components_add_of_nil {c : Container T} (h : c.components = []) {x : T}
    (hx : (c.add x).result ≠ .ok true) : (c.add x).state.components = [] := by
  revert hx
  unfold add
  rcases c.draft.insert (setEditable true x) with e | _ | ix
  · exact fun _ => components_edit_of_nil h
  · exact fun _ => components_edit_of_nil h
  · exact fun hx => absurd rfl hx

theorem components_erase_ne_nil [LawfulComponent T] (c : Container T) (n : UInt32) :
    (c.erase n).state.components ≠ [] := by
  obtain ⟨ix, hins, herase⟩ := erase_eq c n
  obtain ⟨-, hbyNumber, -⟩ := Index.insert_eq_ok hins
  rw [herase]
  intro hnil
  have hnone := components_eq_nil_iff.1 hnil (number (erasing n : T))
  rw [Outcome.ok, draft_withDraft, hbyNumber, SortedMap.get?_insert_self] at hnone
  cases hnone

end ChronicleMeta.Container
