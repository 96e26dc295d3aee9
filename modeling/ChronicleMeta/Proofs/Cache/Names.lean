import ChronicleMeta.Proofs.Cache.Accounting
import ChronicleMeta.Proofs.SortedMap

/-! Where the full names of a cache lead to. -/

namespace ChronicleMeta.Cache

variable {c c' : Cache} {k : Identity} {chronicle : Chronicle}

/-- A full name leads to a chronicle that is cached and has the name. -/
def Named (c : Cache) : Prop :=
  ∀ n k, c.names.get? n = some k → ∃ x, c.chronicles.get? k = some x ∧ x.fullName = n

theorem named_of_names_eq (h : c.names = ∅) : c.Named := by
  intro n k hn
  simp [h] at hn

theorem Named.of_perm (h : c.Named) (hu : c.chronicles.Unique)
    (hp : c.chronicles.Perm c'.chronicles) (hnames : c'.names = c.names) : c'.Named := by
  intro n k hn
  rw [hnames] at hn
  rw [Recency.get?_perm hu hp]
  exact h n k hn

/-- The names that are left lead to the chronicles that are left. -/
private theorem Named.forgetName (h : c.Named) (hk : c.chronicles.get? k = some chronicle)
    {n : String} {j : Identity} (hn : (c.forgetName k chronicle).names.get? n = some j) :
    ∃ x, (c.chronicles.erase k).get? j = some x ∧ x.fullName = n := by
  rw [names_forgetName] at hn
  have hold : c.names.get? n = some j := by
    split_ifs at hn
    · rw [SortedMap.get?_erase] at hn
      split_ifs at hn
      exact hn
    · exact hn
  obtain ⟨x, hx, hname⟩ := h n j hold
  have hne : j ≠ k := by
    rintro rfl
    obtain rfl : chronicle = x := Option.some.inj (hk.symm.trans hx)
    rw [← hname] at hn hold
    rw [if_pos hold, SortedMap.get?_erase, if_pos rfl] at hn
    cases hn
  refine ⟨x, ?_, hname⟩
  rw [Recency.get?_erase, if_neg hne, hx]

theorem Named.drop (h : c.Named) (hk : c.chronicles.get? k = some chronicle)
    (hchron : c'.chronicles = c.chronicles.erase k)
    (hnames : c'.names = (c.forgetName k chronicle).names) : c'.Named := by
  intro n j hn
  rw [hnames] at hn
  rw [hchron]
  exact h.forgetName hk hn

theorem Named.place (h : c.Named) (hu : c.chronicles.Unique)
    (hchron : c'.chronicles = (c.chronicles.push c.capacity k chronicle).2)
    (hnames : c'.names = (c.namesWithout (c.chronicles.push c.capacity k chronicle).1).insert
      chronicle.fullName k) : c'.Named := by
  -- what is left of the old names leads to what is left of the old chronicles
  have hplaced : ∃ rest, c'.chronicles = (k, chronicle) :: rest ∧ Recency.get? rest k = none ∧
      ∀ n j, (c.namesWithout (c.chronicles.push c.capacity k chronicle).1).get? n = some j →
        ∃ x, Recency.get? rest j = some x ∧ x.fullName = n := by
    rw [hchron]
    obtain ⟨hnone, hpush⟩ | ⟨old, dropped, hold, hnone, hpush⟩ :=
      Recency.push_cases hu c.capacity k chronicle
    · rw [hpush]
      exact ⟨c.chronicles, rfl, hnone, h⟩
    · rw [hpush]
      exact ⟨_, rfl, hnone, fun n j => h.forgetName hold⟩
  obtain ⟨rest, hrest, hnone, hleft⟩ := hplaced
  intro n j hn
  rw [hnames, SortedMap.get?_insert] at hn
  rw [hrest, Recency.get?_cons]
  split_ifs at hn with heq
  · obtain rfl := Option.some.inj hn
    rw [if_pos rfl]
    exact ⟨chronicle, rfl, heq.symm⟩
  · obtain ⟨x, hx, hname⟩ := hleft n j hn
    have hne : j ≠ k := by
      rintro rfl
      rw [hnone] at hx
      cases hx
    rw [if_neg hne]
    exact ⟨x, hx, hname⟩

/-- The full name of a cached chronicle leads to it. -/
def Findable (c : Cache) : Prop :=
  ∀ k x, c.chronicles.get? k = some x → c.names.get? x.fullName = some k

theorem Findable.of_perm (h : c.Findable) (hu : c.chronicles.Unique)
    (hp : c.chronicles.Perm c'.chronicles) (hnames : c'.names = c.names) : c'.Findable := by
  intro k x hx
  rw [Recency.get?_perm hu hp] at hx
  rw [hnames]
  exact h k x hx

/-- The full names of the chronicles that are left are left. -/
private theorem Findable.forgetName (h : c.Findable) {j : Identity} {x : Chronicle}
    (hx : (c.chronicles.erase k).get? j = some x) :
    c.chronicles.get? j = some x ∧ (c.forgetName k chronicle).names.get? x.fullName = some j := by
  rw [Recency.get?_erase] at hx
  split_ifs at hx with hne
  have hj := h j x hx
  refine ⟨hx, ?_⟩
  rw [names_forgetName]
  split_ifs with hleads
  · have hname : x.fullName ≠ chronicle.fullName := by
      intro heq
      rw [heq, hleads] at hj
      exact hne (Option.some.inj hj).symm
    rw [SortedMap.get?_erase, if_neg hname, hj]
  · exact hj

theorem Findable.drop (h : c.Findable) (hchron : c'.chronicles = c.chronicles.erase k)
    (hnames : c'.names = (c.forgetName k chronicle).names) : c'.Findable := by
  intro j x hx
  rw [hchron] at hx
  rw [hnames]
  exact (h.forgetName hx).2

/-- A chronicle can be placed that has the full name of no other one. -/
theorem Findable.place (h : c.Findable) (hu : c.chronicles.Unique)
    (hfree : ∀ j x, c.chronicles.get? j = some x → x.fullName = chronicle.fullName → j = k)
    (hchron : c'.chronicles = (c.chronicles.push c.capacity k chronicle).2)
    (hnames : c'.names = (c.namesWithout (c.chronicles.push c.capacity k chronicle).1).insert
      chronicle.fullName k) : c'.Findable := by
  have hplaced : ∃ rest, c'.chronicles = (k, chronicle) :: rest ∧
      ∀ j x, Recency.get? rest j = some x → c.chronicles.get? j = some x ∧
        (c.namesWithout (c.chronicles.push c.capacity k chronicle).1).get? x.fullName = some j := by
    rw [hchron]
    obtain ⟨-, hpush⟩ | ⟨old, dropped, -, -, hpush⟩ := Recency.push_cases hu c.capacity k chronicle
    · rw [hpush]
      exact ⟨c.chronicles, rfl, fun j x hx => ⟨hx, h j x hx⟩⟩
    · rw [hpush]
      exact ⟨_, rfl, fun j x hx => h.forgetName hx⟩
  obtain ⟨rest, hrest, hleft⟩ := hplaced
  intro j x hx
  rw [hrest, Recency.get?_cons] at hx
  rw [hnames, SortedMap.get?_insert]
  split_ifs at hx with hj
  · obtain rfl := Option.some.inj hx
    rw [if_pos rfl, hj]
  · obtain ⟨hold, hname⟩ := hleft j x hx
    rw [if_neg fun heq => hj (hfree j x hold heq), hname]

end ChronicleMeta.Cache
