import ChronicleMeta.SortedMap
import Mathlib.Data.List.Nodup
import Mathlib.Data.List.Perm.Basic

/-! Maps through their look-ups, and what a change does to the list of entries. -/

namespace ChronicleMeta.SortedMap

open Std (TransOrd LawfulEqOrd OrientedCmp TransCmp LawfulEqCmp ReflCmp)

variable {κ α β : Type} [Ord κ]

theorem contains_iff {m : SortedMap κ α} {k : κ} : m.contains k ↔ ∃ a, m.get? k = some a := by
  simp [contains, Option.isSome_iff_exists]

theorem contains_eq_false_iff {m : SortedMap κ α} {k : κ} :
    m.contains k = false ↔ m.get? k = none := by
  simp [contains]

theorem values_mapValues (f : α → β) (m : SortedMap κ α) :
    (m.mapValues fun _ => f).values = m.values.map f := by
  simp [values, mapValues, Function.comp_def]

private theorem find_eq_some_iff [LawfulEqOrd κ] {l : List (κ × α)}
    (h : l.Pairwise (fun a b => compare a.1 b.1 = .lt)) {k : κ} {a : α} :
    find k l = some a ↔ (k, a) ∈ l := by
  induction l with
  | nil => simp [find]
  | cons e l ih =>
    obtain ⟨k', b⟩ := e
    obtain ⟨he, hl⟩ := List.pairwise_cons.1 h
    by_cases hk : k = k'
    · subst hk
      have hout : (k, a) ∉ l := fun hm => by
        have := he _ hm
        simp [ReflCmp.compare_self] at this
      simp [find, ReflCmp.compare_self, hout, eq_comm]
    · have hne : ¬compare k k' = .eq := fun e => hk (LawfulEqCmp.eq_of_compare e)
      simp [find, hne, hk, ih hl]

variable [LawfulEqOrd κ]

theorem mem_toList_iff {m : SortedMap κ α} {k : κ} {a : α} :
    (k, a) ∈ m.toList ↔ m.get? k = some a :=
  (find_eq_some_iff m.ascending).symm

theorem mem_values_iff {m : SortedMap κ α} {a : α} : a ∈ m.values ↔ ∃ k, m.get? k = some a := by
  simp [values, ← mem_toList_iff]

theorem get?_erase [DecidableEq κ] (m : SortedMap κ α) (k k' : κ) :
    (m.erase k).get? k' = if k' = k then none else m.get? k' := by
  refine Option.ext fun a => ?_
  rw [← mem_toList_iff]
  by_cases h : k' = k
  · simp [erase, h, ReflCmp.compare_self]
  · have hne : compare k k' ≠ .eq := fun e => h (LawfulEqCmp.eq_of_compare e).symm
    simp [erase, h, hne, mem_toList_iff]

@[simp] theorem get?_mapValues (f : κ → α → β) (m : SortedMap κ α) (k : κ) :
    (m.mapValues f).get? k = (m.get? k).map (f k) := by
  refine Option.ext fun b => ?_
  rw [← mem_toList_iff]
  simp only [mapValues, List.mem_map, Prod.exists, Prod.mk.injEq, Option.map_eq_some_iff,
    ← mem_toList_iff]
  constructor
  · rintro ⟨k', a, hm, rfl, rfl⟩
    exact ⟨a, hm, rfl⟩
  · rintro ⟨a, hm, rfl⟩
    exact ⟨k, a, hm, rfl, rfl⟩

theorem nodup_keys (m : SortedMap κ α) : (m.toList.map Prod.fst).Nodup :=
  List.pairwise_map.2 <| m.ascending.imp fun h e => by
    simp [e, ReflCmp.compare_self] at h

private theorem nodup_toList (m : SortedMap κ α) : m.toList.Nodup := (nodup_keys m).of_map

private theorem perm_cons_erase [DecidableEq κ] {m n : SortedMap κ α} {k : κ} {a : α}
    (hk : m.get? k = some a) (hn : ∀ k', k' ≠ k → m.get? k' = n.get? k') :
    m.toList.Perm ((k, a) :: (n.erase k).toList) := by
  have hout : (k, a) ∉ (n.erase k).toList := by simp [mem_toList_iff, get?_erase]
  refine (List.perm_ext_iff_of_nodup (nodup_toList m)
    (List.nodup_cons.2 ⟨hout, nodup_toList _⟩)).2 fun ⟨k', b⟩ => ?_
  rw [List.mem_cons, mem_toList_iff, mem_toList_iff, get?_erase]
  by_cases h : k' = k
  · simp [h, hk, eq_comm]
  · simp [h, hn k' h]

/-- A map has the entry of a key and those that are left without it. -/
theorem toList_perm_cons_erase [DecidableEq κ] {m : SortedMap κ α} {k : κ} {a : α}
    (h : m.get? k = some a) : m.toList.Perm ((k, a) :: (m.erase k).toList) :=
  perm_cons_erase h fun _ _ => rfl

theorem values_perm_cons_erase [DecidableEq κ] {m : SortedMap κ α} {k : κ} {a : α}
    (h : m.get? k = some a) : m.values.Perm (a :: (m.erase k).values) :=
  (toList_perm_cons_erase h).map Prod.snd

variable [TransOrd κ]

theorem get?_insert [DecidableEq κ] (m : SortedMap κ α) (k k' : κ) (a : α) :
    (m.insert k a).get? k' = if k' = k then some a else m.get? k' := by
  split_ifs with h
  · rw [h, get?_insert_self]
  · exact get?_insert_of_ne m h a

/-- What is inserted under a new key takes the place of nothing. -/
theorem get?_insert_of_free {m : SortedMap κ α} {k k' : κ} (a : α) {b : α} (hk : m.get? k = none)
    (hb : m.get? k' = some b) : (m.insert k a).get? k' = some b := by
  have hne : k' ≠ k := by
    rintro rfl
    cases hk.symm.trans hb
  exact (get?_insert_of_ne m hne a).trans hb

/-- Maps are equal if their look-ups are. -/
theorem ext_get? {m n : SortedMap κ α} (h : ∀ k, m.get? k = n.get? k) : m = n := by
  have hasymm : ∀ a b : κ × α, a ∈ m.toList → b ∈ n.toList →
      compare a.1 b.1 = .lt → compare b.1 a.1 = .lt → a = b := fun a b _ _ hab hba => by
    rw [OrientedCmp.gt_of_lt hab] at hba
    cases hba
  refine ext_toList (List.Perm.eq_of_pairwise hasymm m.ascending n.ascending ?_)
  refine (List.perm_ext_iff_of_nodup (nodup_toList m) (nodup_toList n)).2 fun e => ?_
  rw [mem_toList_iff, mem_toList_iff, h]

theorem insert_insert [DecidableEq κ] (m : SortedMap κ α) (k : κ) (a b : α) :
    (m.insert k a).insert k b = m.insert k b := by
  refine ext_get? fun k' => ?_
  simp only [get?_insert]
  split_ifs <;> rfl

theorem insert_erase [DecidableEq κ] (m : SortedMap κ α) (k : κ) (a : α) :
    (m.erase k).insert k a = m.insert k a := by
  refine ext_get? fun k' => ?_
  simp only [get?_insert, get?_erase]
  split_ifs <;> rfl

theorem toList_insert_perm [DecidableEq κ] (m : SortedMap κ α) (k : κ) (a : α) :
    (m.insert k a).toList.Perm ((k, a) :: (m.erase k).toList) :=
  perm_cons_erase (get?_insert_self m k a) fun _ h => get?_insert_of_ne m h a

omit [LawfulEqOrd κ] in
private theorem place_of_forall_lt {l : List (κ × α)} {k : κ} (a : α)
    (h : ∀ e ∈ l, compare e.1 k = .lt) : place k a l = l ++ [(k, a)] := by
  induction l with
  | nil => rfl
  | cons e l ih =>
    have he := OrientedCmp.gt_of_lt (h e List.mem_cons_self)
    have hl := ih fun e' he' => h e' (List.mem_cons_of_mem _ he')
    simp only [place, he, hl, List.cons_append]

/-- An entry that comes after all others is the last one. -/
theorem toList_insert_of_forall_lt {m : SortedMap κ α} {k : κ} (a : α)
    (h : ∀ e ∈ m.toList, compare e.1 k = .lt) : (m.insert k a).toList = m.toList ++ [(k, a)] :=
  place_of_forall_lt a h

theorem erase_eq_self [DecidableEq κ] {m : SortedMap κ α} {k : κ} (h : m.get? k = none) :
    m.erase k = m := by
  refine ext_get? fun k' => ?_
  rw [get?_erase]
  split_ifs with hk
  · rw [hk, h]
  · rfl

theorem values_insert_perm [DecidableEq κ] {m : SortedMap κ α} {k : κ} (a : α)
    (h : m.get? k = none) : (m.insert k a).values.Perm (a :: m.values) := by
  have hperm := (toList_insert_perm m k a).map Prod.snd
  rw [erase_eq_self h] at hperm
  exact hperm

private theorem mem_of_get?_foldl_insert [DecidableEq κ] {l : List (κ × α)} {m : SortedMap κ α}
    {k : κ} {a : α} (h : (l.foldl (fun m e => m.insert e.1 e.2) m).get? k = some a) :
    m.get? k = some a ∨ (k, a) ∈ l := by
  induction l generalizing m with
  | nil => exact .inl h
  | cons e l ih =>
    rcases ih h with hm | hl
    · rw [get?_insert] at hm
      split_ifs at hm with hk
      · have ha : e.2 = a := Option.some.inj hm
        exact .inr (by rw [hk, ← ha]; exact List.mem_cons_self)
      · exact .inl hm
    · exact .inr (List.mem_cons_of_mem e hl)

/-- What a map made of a list holds is in the list. -/
theorem mem_of_get?_ofList [DecidableEq κ] {l : List (κ × α)} {k : κ} {a : α}
    (h : (ofList l).get? k = some a) : (k, a) ∈ l :=
  (mem_of_get?_foldl_insert h).resolve_left (by simp [get?_empty])

omit [LawfulEqOrd κ] [TransOrd κ] in
theorem mem_keys_iff [LawfulEqOrd κ] {m : SortedMap κ α} {k : κ} : k ∈ m.keys ↔ m.contains k := by
  rw [contains_iff]
  simp only [keys, List.mem_map, Prod.exists, exists_and_right, exists_eq_right, mem_toList_iff]

private theorem contains_foldl_insert [DecidableEq κ] {l : List (κ × α)} {m : SortedMap κ α} {k : κ}
    (h : m.contains k ∨ k ∈ l.map Prod.fst) :
    (l.foldl (fun m e => m.insert e.1 e.2) m).contains k := by
  induction l generalizing m with
  | nil => exact h.resolve_right (by simp)
  | cons e l ih =>
    apply ih
    by_cases hk : k = e.1
    · left
      rw [hk, contains_iff]
      exact ⟨e.2, get?_insert_self m e.1 e.2⟩
    · rcases h with hm | hl
      · left
        rwa [contains, get?_insert_of_ne m hk]
      · exact .inr ((List.mem_cons.1 hl).resolve_left hk)

/-- The keys of a map made of a list are those of the list. -/
theorem contains_ofList_iff [DecidableEq κ] {l : List (κ × α)} {k : κ} :
    (ofList l).contains k ↔ k ∈ l.map Prod.fst := by
  constructor
  · intro h
    obtain ⟨a, ha⟩ := contains_iff.1 h
    exact List.mem_map.2 ⟨(k, a), mem_of_get?_ofList ha, rfl⟩
  · exact fun h => contains_foldl_insert (.inr h)

end ChronicleMeta.SortedMap
