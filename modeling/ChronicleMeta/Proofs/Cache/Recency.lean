import ChronicleMeta.Cache.Basic
import Mathlib.Data.List.Nodup
import Mathlib.Data.List.Perm.Basic

/-! Lists in the order of last use, as collections: a change moves, adds or drops an entry. -/

namespace ChronicleMeta.Recency

variable {κ α : Type} [DecidableEq κ] {l : Recency κ α} {k : κ} {a : α}

/-- Each key is there once. -/
def Unique (l : Recency κ α) : Prop := (l.map Prod.fst).Nodup

omit [DecidableEq κ] in
theorem unique_nil : Unique ([] : Recency κ α) := List.nodup_nil

theorem get?_eq_none_iff : l.get? k = none ↔ k ∉ l.map Prod.fst := by
  simp only [get?, Option.map_eq_none_iff, List.find?_eq_none, List.mem_map, not_exists, not_and,
    decide_eq_true_eq]

theorem mem_of_get? (h : l.get? k = some a) : (k, a) ∈ l := by
  obtain ⟨⟨k', b⟩, hf, rfl⟩ := Option.map_eq_some_iff.1 h
  obtain rfl : k' = k := by simpa using List.find?_some hf
  exact List.mem_of_find?_eq_some hf

theorem get?_eq_some_iff (hl : l.Unique) : l.get? k = some a ↔ (k, a) ∈ l := by
  refine ⟨mem_of_get?, fun h => ?_⟩
  cases hg : l.get? k with
  | none => exact absurd (List.mem_map_of_mem h) (get?_eq_none_iff.1 hg)
  | some b => exact congrArg some (congrArg Prod.snd
      (List.inj_on_of_nodup_map hl (mem_of_get? hg) h rfl))

theorem get?_erase_self : (l.erase k).get? k = none := by
  rw [get?_eq_none_iff]
  simp [erase]

theorem get?_cons (k k' : κ) (a : α) :
    get? ((k, a) :: l) k' = if k' = k then some a else l.get? k' := by
  by_cases h : k' = k
  · simp [get?, h]
  · simp [get?, h, Ne.symm h]

theorem get?_erase (k k' : κ) : (l.erase k).get? k' = if k' = k then none else l.get? k' := by
  split_ifs with h
  · rw [h, get?_erase_self]
  · induction l with
    | nil => rfl
    | cons e l ih =>
      obtain ⟨j, b⟩ := e
      by_cases hj : j = k
      · have hne : k' ≠ j := hj ▸ h
        rw [show erase ((j, b) :: l) k = erase l k by simp [erase, hj], ih, get?_cons, if_neg hne]
      · rw [show erase ((j, b) :: l) k = (j, b) :: erase l k by simp [erase, hj], get?_cons,
          get?_cons, ih]

theorem perm_cons_erase (hl : l.Unique) (h : l.get? k = some a) : l.Perm ((k, a) :: l.erase k) := by
  have hmem := mem_of_get? h
  induction l with
  | nil => simp at hmem
  | cons e l ih =>
    obtain ⟨hout, hl⟩ := List.nodup_cons.1 hl
    by_cases he : e.1 = k
    · have hkeep : erase l k = l := List.filter_eq_self.2 fun e' he' => by
        have : e'.1 ≠ k := fun heq => hout (he.trans heq.symm ▸ List.mem_map_of_mem he')
        simpa using this
      obtain rfl : e = (k, a) := by
        rcases List.mem_cons.1 hmem with rfl | hm
        · rfl
        · exact absurd (he ▸ List.mem_map_of_mem hm) hout
      rw [show erase ((k, a) :: l) k = erase l k by simp [erase], hkeep]
    · have hm : (k, a) ∈ l := by
        rcases List.mem_cons.1 hmem with rfl | hm
        · exact absurd rfl he
        · exact hm
      have hp := ih hl ((get?_eq_some_iff hl).2 hm) hm
      have herase : erase (e :: l) k = e :: erase l k := by simp [erase, he]
      rw [herase]
      exact (hp.cons e).trans (List.Perm.swap _ _ _)

omit [DecidableEq κ] in
theorem Unique.perm {m : Recency κ α} (h : l.Unique) (hp : l.Perm m) : m.Unique :=
  (hp.map Prod.fst).nodup_iff.1 h

/-- The order of the entries does not matter for look-ups. -/
theorem get?_perm {m : Recency κ α} (hl : l.Unique) (hp : l.Perm m) (k : κ) :
    m.get? k = l.get? k := by
  refine Option.ext fun a => ?_
  rw [get?_eq_some_iff hl, get?_eq_some_iff (hl.perm hp), hp.mem_iff]

/-- Promotion reorders the entries. -/
theorem perm_promote (hl : l.Unique) (k : κ) : (l.promote k).Perm l := by
  unfold promote
  split
  next a h => exact (perm_cons_erase hl h).symm
  next => exact .refl _

theorem Unique.erase (hl : l.Unique) (k : κ) : (l.erase k).Unique :=
  hl.sublist (List.filter_sublist.map _)

theorem erase_concat {init : Recency κ α} (hl : Unique (init ++ [(k, a)])) :
    erase (init ++ [(k, a)]) k = init := by
  have hout : k ∉ init.map Prod.fst := fun hmem => by
    have hdup : (init.map Prod.fst ++ [k]).Nodup := by simpa [Unique] using hl
    exact (List.nodup_append.1 hdup).2.2 k hmem k (List.mem_singleton.2 rfl) rfl
  have hkeep : erase init k = init := List.filter_eq_self.2 fun e he => by
    have hne : e.1 ≠ k := fun heq => hout (heq ▸ List.mem_map_of_mem he)
    simpa using hne
  have hsplit : erase (init ++ [(k, a)]) k = erase init k ++ [] := by
    simp [erase, List.filter_append]
  rw [hsplit, hkeep, List.append_nil]

/-- All that a push can do: the entry is put before the others, or before those without the one that
it displaces. -/
theorem push_cases (hl : l.Unique) (capacity : Nat) (k : κ) (a : α) :
    (l.get? k = none ∧ l.push capacity k a = (none, (k, a) :: l)) ∨
      ∃ old b, l.get? old = some b ∧ (l.erase old).get? k = none ∧
        l.push capacity k a = (some (old, b), (k, a) :: l.erase old) := by
  unfold push
  split
  next b h => exact .inr ⟨k, b, h, get?_erase_self, rfl⟩
  next h =>
    split_ifs
    · exact .inl ⟨h, rfl⟩
    · rcases List.eq_nil_or_concat l with rfl | ⟨init, ⟨old, b⟩, rfl⟩
      · exact .inl ⟨rfl, rfl⟩
      · rw [List.concat_eq_append] at hl h ⊢
        have hold : get? (init ++ [(old, b)]) old = some b :=
          (get?_eq_some_iff hl).2 (List.mem_append_right _ (List.mem_singleton.2 rfl))
        have hne : k ≠ old := fun heq => by rw [heq, hold] at h; cases h
        refine .inr ⟨old, b, hold, ?_, ?_⟩
        · rw [get?_erase, if_neg hne, h]
        · rw [erase_concat hl, List.getLast?_append, List.dropLast_concat]
          rfl

/-- A push puts the entry at the front of those that are not displaced. -/
theorem push_eq (hl : l.Unique) (capacity : Nat) (k : κ) (a : α) :
    ∃ rest, (l.push capacity k a).2 = (k, a) :: rest ∧ rest.Sublist l ∧ k ∉ rest.map Prod.fst ∧
      l.Perm ((l.push capacity k a).1.toList ++ rest) := by
  obtain ⟨hnone, hpush⟩ | ⟨old, b, hold, hnone, hpush⟩ := push_cases hl capacity k a
  · rw [hpush]
    exact ⟨l, rfl, .refl l, get?_eq_none_iff.1 hnone, .refl l⟩
  · rw [hpush]
    exact ⟨l.erase old, rfl, List.filter_sublist, get?_eq_none_iff.1 hnone, perm_cons_erase hl hold⟩

theorem get?_of_push (hl : l.Unique) {capacity : Nat} {j : κ} {b : α}
    (h : (l.push capacity k a).2.get? j = some b) : j = k ∧ b = a ∨ l.get? j = some b := by
  obtain ⟨rest, heq, hsub, -, -⟩ := push_eq hl capacity k a
  rw [heq, get?_cons] at h
  split_ifs at h with hj
  · exact .inl ⟨hj, (Option.some.inj h).symm⟩
  · exact .inr ((get?_eq_some_iff hl).2 (hsub.subset (mem_of_get? h)))

theorem unique_push (hl : l.Unique) (capacity : Nat) (k : κ) (a : α) :
    (l.push capacity k a).2.Unique := by
  obtain ⟨rest, heq, hsub, hout, -⟩ := push_eq hl capacity k a
  rw [heq]
  exact List.nodup_cons.2 ⟨hout, hl.sublist (hsub.map _)⟩

theorem map_fst_erase (hl : l.Unique) (k : κ) :
    (l.erase k).map Prod.fst = (l.map Prod.fst).erase k := by
  rw [List.Nodup.erase_eq_filter hl, erase, List.filter_map]
  congr 1
  exact List.filter_congr fun e _ => Bool.eq_iff_iff.2 (by simp)

theorem map_fst_promote (hl : l.Unique) (h : l.get? k = some a) :
    (l.promote k).map Prod.fst = k :: (l.map Prod.fst).erase k := by
  simp only [promote, h, List.map_cons, map_fst_erase hl]

theorem promote_of_get?_eq_none (h : l.get? k = none) : l.promote k = l := by
  simp only [promote, h]

/-- A push moves a key to the front. One that was not there displaces the last one, if there is no
room. -/
theorem map_fst_push (hl : l.Unique) (capacity : Nat) (k : κ) (a : α) :
    (l.push capacity k a).2.map Prod.fst =
      if k ∈ l.map Prod.fst then k :: (l.map Prod.fst).erase k
      else if l.length < capacity then k :: l.map Prod.fst
      else k :: (l.map Prod.fst).dropLast := by
  unfold push
  cases h : l.get? k with
  | some old =>
    rw [if_pos (List.mem_map_of_mem (mem_of_get? h))]
    simp only [List.map_cons, map_fst_erase hl]
  | none =>
    rw [if_neg (get?_eq_none_iff.1 h)]
    split_ifs
    · rfl
    · simp only [List.map_cons, List.map_dropLast]

/-- A push displaces another key exactly where there is no room for a new one. -/
theorem any_push {capacity : Nat} (hpos : 0 < capacity) (l : Recency κ α) (k : κ) (a : α) :
    (l.push capacity k a).1.any (·.1 ≠ k) ↔ k ∉ l.map Prod.fst ∧ capacity ≤ l.length := by
  unfold push
  cases h : l.get? k with
  | some old =>
    have hk : k ∈ l.map Prod.fst := List.mem_map_of_mem (mem_of_get? h)
    simp [hk]
  | none =>
    have hk : k ∉ l.map Prod.fst := get?_eq_none_iff.1 h
    dsimp only
    split_ifs with hlt
    · have hroom : ¬ capacity ≤ l.length := by omega
      simp [hroom]
    · have hne : l ≠ [] := List.ne_nil_of_length_pos (by omega)
      have hlast : (l.getLast hne).1 ≠ k := fun heq =>
        hk (heq ▸ List.mem_map_of_mem (List.getLast_mem hne))
      have hfull : capacity ≤ l.length := by omega
      rw [List.getLast?_eq_some_getLast hne]
      simpa [hlast, hfull] using hk

variable {β : Type}

theorem get?_map (f : α → β) (l : Recency κ α) (k : κ) :
    get? (l.map (Prod.map id f)) k = (l.get? k).map f := by
  induction l with
  | nil => rfl
  | cons e l ih =>
    obtain ⟨j, b⟩ := e
    rw [List.map_cons, Prod.map_apply, id_eq, get?_cons, get?_cons, ih]
    split_ifs <;> rfl

theorem erase_map (f : α → β) (l : Recency κ α) (k : κ) :
    erase (l.map (Prod.map id f)) k = (l.erase k).map (Prod.map id f) := by
  rw [erase, erase, List.filter_map]
  rfl

theorem promote_map (f : α → β) (l : Recency κ α) (k : κ) :
    promote (l.map (Prod.map id f)) k = (l.promote k).map (Prod.map id f) := by
  cases h : l.get? k <;> simp [promote, get?_map, erase_map, h]

theorem push_map (f : α → β) (l : Recency κ α) (capacity : Nat) (k : κ) (a : α) :
    push capacity (l.map (Prod.map id f)) k (f a) =
      ((l.push capacity k a).1.map (Prod.map id f), (l.push capacity k a).2.map (Prod.map id f)) := by
  cases h : l.get? k with
  | some old => simp [push, get?_map, erase_map, h]
  | none =>
    by_cases hlt : l.length < capacity
    · simp [push, get?_map, h, hlt]
    · simp [push, get?_map, h, hlt, List.getLast?_map, List.map_dropLast]

end ChronicleMeta.Recency
