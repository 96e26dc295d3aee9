import ChronicleMeta.Proofs.Cache.Accounting
import ChronicleMeta.Proofs.SortedMap

/-!
How properties are counted for a schema: each of its properties once when the schema is taken up,
and the same properties once when it is released, those of the built-in database apart.
-/

namespace ChronicleMeta

/-- Whether the property is replaced by the built-in one of its name, and never counted. -/
def Property.isPinned (p : Property) : Bool := p.isBuiltin && (Builtin.property? p.name).isSome

def Property.countsAs (k : Identity) (p : Property) : Bool :=
  !p.isPinned && p.surrogate.identity? = some k

def Schema.counts (k : Identity) (s : Schema) : Bool := s.properties.any (·.countsAs k)

theorem Property.countsAs_iff {p : Property} {k : Identity} :
    p.countsAs k ↔ p.isPinned = false ∧ p.surrogate.identity? = some k := by
  simp [countsAs]

theorem Property.isBuiltin_eq {p : Property} {k : Identity} (h : p.surrogate.identity? = some k) :
    p.isBuiltin = k.database.isBuiltin := by
  obtain ⟨id, -, rfl⟩ := Option.map_eq_some_iff.1 h
  rfl

theorem Property.isPinned_of_property? {name : String} {p : Property}
    (h : Builtin.property? name = some p) : p.isPinned := by
  have hmem := List.mem_of_find?_eq_some h
  have hall : ∀ q ∈ Builtin.properties, q.isPinned := by decide
  exact hall p hmem

theorem Builtin.property?_name {p : Property} (h : p ∈ Builtin.properties) :
    Builtin.property? p.name = some p := by
  simp only [Builtin.properties, List.mem_cons, List.not_mem_nil, or_false] at h
  obtain rfl | rfl | rfl := h <;> rfl

namespace Cache

/-- Properties counted by `n`, each under its identity. -/
structure Keeps (n : Identity → Nat) (m : SortedMap Identity (Counted Property)) : Prop where
  /-- The uses of a property, which is not there without one. -/
  uses_eq : ∀ k, (m.get? k).map (·.uses) = positive? (n k)
  countsAs : ∀ k e, m.get? k = some e → e.value.countsAs k

variable {n : Identity → Nat} {m : SortedMap Identity (Counted Property)} {k : Identity}

theorem keeps_empty : Keeps (fun _ => 0) ∅ where
  uses_eq _ := rfl
  countsAs := by simp

theorem Keeps.congr (h : Keeps n m) {n' : Identity → Nat} (hn : ∀ k, n k = n' k) : Keeps n' m :=
  funext hn ▸ h

theorem Keeps.get?_eq_none_iff (h : Keeps n m) : m.get? k = none ↔ n k = 0 := by
  rw [← positive?_eq_none_iff, ← h.uses_eq, Option.map_eq_none_iff]

theorem Keeps.uses_of_get? (h : Keeps n m) {e : Counted Property} (he : m.get? k = some e) :
    e.uses = n k ∧ 0 < n k := by
  have huses := h.uses_eq k
  rw [he] at huses
  cases hn : n k with
  | zero => simp [hn] at huses
  | succ i => simpa [hn] using huses

/-- The properties met so far are counted once more than before, and recorded. -/
structure Shares (n : Identity → Nat) (seen : List Property) (s : Sharing) : Prop where
  keeps : Keeps (fun k => n k + if seen.any (·.countsAs k) then 1 else 0) s.properties
  acquired_iff : ∀ k, k ∈ s.acquired ↔ seen.any (·.countsAs k)

/-- All that the sharing of a property can do: a pinned one is replaced, and another one is counted
unless it has been already. -/
theorem share_eq_ok {p q : Property} {s s' : Sharing} (h : (share p).run s = .ok (q, s')) :
    (Builtin.property? p.name = some q ∧ p.isPinned ∧ s' = s) ∨
      ∃ k, p.countsAs k ∧ q = ((s.properties.get? k).getD ⟨0, p⟩).value ∧
        (k ∈ s.acquired ∧ s' = s ∨
          k ∉ s.acquired ∧ s' = {
            properties := s.properties.insert k
              ⟨((s.properties.get? k).getD ⟨0, p⟩).uses + 1, q⟩
            acquired := k :: s.acquired }) := by
  unfold share shareProperty at h
  split at h
  next b hb =>
    obtain ⟨rfl, rfl⟩ := run_pure_eq_ok_iff.1 h
    split_ifs at hb with hbuiltin
    exact .inl ⟨hb, by simp [Property.isPinned, hbuiltin, hb], rfl⟩
  next hb =>
    have hpin : p.isPinned = false := by
      split_ifs at hb with hbuiltin
      · simp [Property.isPinned, hb]
      · simp [Property.isPinned, hbuiltin]
    obtain ⟨k, s₁, hlift, h⟩ := run_bind_eq_ok_iff.1 h
    obtain ⟨hk, rfl⟩ := run_lift_eq_ok_iff.1 hlift
    rw [run_get_bind_eq_ok_iff] at h
    refine .inr ⟨k, Property.countsAs_iff.2 ⟨hpin, Surrogate.identity_eq_ok_iff.1 hk⟩, ?_⟩
    split_ifs at h with hacquired
    · obtain ⟨rfl, rfl⟩ := run_pure_eq_ok_iff.1 h
      exact ⟨rfl, .inl ⟨hacquired, rfl⟩⟩
    · rw [run_set_bind_eq_ok_iff] at h
      obtain ⟨rfl, rfl⟩ := run_pure_eq_ok_iff.1 h
      exact ⟨rfl, .inr ⟨hacquired, rfl⟩⟩

/-- A property can be shared if it is pinned or has an identity. -/
theorem exists_share {p : Property} (s : Sharing)
    (h : p.isPinned ∨ ∃ k, p.surrogate.identity? = some k) :
    ∃ q s', (share p).run s = .ok (q, s') := by
  unfold share shareProperty
  split
  next b _ => exact ⟨b, s, rfl⟩
  next hb =>
    have hidentity : ∃ k, p.surrogate.identity? = some k := by
      refine h.resolve_left fun hpin => ?_
      obtain ⟨hbuiltin, hname⟩ : p.isBuiltin ∧ (Builtin.property? p.name).isSome := by
        simpa [Property.isPinned] using hpin
      rw [if_pos hbuiltin] at hb
      simp [hb] at hname
    obtain ⟨k, hk⟩ := hidentity
    have hlift : (liftM p.surrogate.identity : StateT Sharing (Except Error) Identity).run s =
        .ok (k, s) := run_lift_eq_ok_iff.2 ⟨Surrogate.identity_eq_ok_iff.2 hk, rfl⟩
    let entry := (s.properties.get? k).getD ⟨0, p⟩
    by_cases hacquired : k ∈ s.acquired
    · refine ⟨entry.value, s, run_bind_eq_ok_iff.2 ⟨k, s, hlift, ?_⟩⟩
      rw [run_get_bind_eq_ok_iff, if_pos hacquired]
      rfl
    · refine ⟨entry.value, {
        properties := s.properties.insert k { entry with uses := entry.uses + 1 }
        acquired := k :: s.acquired }, run_bind_eq_ok_iff.2 ⟨k, s, hlift, ?_⟩⟩
      rw [run_get_bind_eq_ok_iff, if_neg hacquired]
      rfl

theorem Property.countsAs_unique {p : Property} {j k : Identity} (hj : p.countsAs j)
    (hk : p.countsAs k) : j = k :=
  Option.some.inj ((Property.countsAs_iff.1 hj).2.symm.trans (Property.countsAs_iff.1 hk).2)

theorem Shares.share {seen : List Property} {p q : Property} {s s' : Sharing} (h : Shares n seen s)
    (hrun : (Cache.share p).run s = .ok (q, s')) : Shares n (seen ++ [q]) s' := by
  obtain ⟨hq, -, rfl⟩ | ⟨k, hp, hq, hcase⟩ := share_eq_ok hrun
  · have hnot : ∀ k, q.countsAs k = false := fun k => by
      simp [Property.countsAs, Property.isPinned_of_property? hq]
    refine ⟨?_, fun k => ?_⟩
    · simpa [hnot] using h.keeps
    · simpa [hnot] using h.acquired_iff k
  · have hqk : q.countsAs k := by
      cases hg : s.properties.get? k with
      | none => simpa [hq, hg] using hp
      | some e => simpa [hq, hg] using h.keeps.countsAs k e hg
    have hany : ∀ j, (seen ++ [q]).any (·.countsAs j) = (seen.any (·.countsAs j) || j = k) := by
      intro j
      by_cases hj : j = k
      · simp [hj, hqk]
      · have : q.countsAs j = false := by
          by_contra hne
          exact hj (Property.countsAs_unique (by simpa using hne) hqk)
        simp [hj, this]
    obtain ⟨hin, rfl⟩ | ⟨hout, rfl⟩ := hcase
    · have hseen := (h.acquired_iff k).1 hin
      have hsame : ∀ j, (seen ++ [q]).any (·.countsAs j) = seen.any (·.countsAs j) := by
        intro j
        rw [hany]
        by_cases hj : j = k
        · simp [hj, hseen]
        · simp [hj]
      exact ⟨by simpa only [hsame] using h.keeps, fun j => by rw [hsame]; exact h.acquired_iff j⟩
    · have hseen : seen.any (·.countsAs k) = false := by
        simpa using mt (h.acquired_iff k).2 hout
      refine ⟨⟨fun j => ?_, fun j e he => ?_⟩, fun j => ?_⟩
      · rw [hany, SortedMap.get?_insert]
        by_cases hj : j = k
        · have hentry : ((s.properties.get? k).getD ⟨0, p⟩).uses = n k := by
            cases hg : s.properties.get? k with
            | none => simpa [hseen, eq_comm] using h.keeps.get?_eq_none_iff.1 hg
            | some e => simpa [hseen] using (h.keeps.uses_of_get? hg).1
          simp [hj, hentry]
        · simpa [hj] using h.keeps.uses_eq j
      · rw [SortedMap.get?_insert] at he
        split_ifs at he with hj
        · rw [← Option.some.inj he, hj]
          exact hqk
        · exact h.keeps.countsAs j e he
      · rw [List.mem_cons, h.acquired_iff, hany]
        simp [or_comm]

/-- The properties of a schema are counted once each while it is taken up. -/
theorem Keeps.mapM_share (h : Keeps n m) {l l' : List Property} {s : Sharing}
    (hrun : (l.mapM Cache.share).run { properties := m } = .ok (l', s)) :
    Keeps (fun k => n k + if l'.any (·.countsAs k) then 1 else 0) s.properties := by
  have hall : ∀ (l l' seen : List Property) (s s' : Sharing), Shares n seen s →
      (l.mapM Cache.share).run s = .ok (l', s') → Shares n (seen ++ l') s' := by
    intro l
    induction l with
    | nil =>
      intro l' seen s s' hs hrun
      obtain ⟨rfl, rfl⟩ := run_pure_eq_ok_iff.1 hrun
      simpa using hs
    | cons p l ih =>
      intro l' seen s s' hs hrun
      rw [List.mapM_cons] at hrun
      obtain ⟨q, s₁, hq, hrun⟩ := run_bind_eq_ok_iff.1 hrun
      obtain ⟨qs, s₂, hqs, hrun⟩ := run_bind_eq_ok_iff.1 hrun
      obtain ⟨rfl, rfl⟩ := run_pure_eq_ok_iff.1 hrun
      rw [List.append_cons]
      exact ih qs _ _ _ (hs.share hq) hqs
  have hstart : Shares n [] { properties := m } := ⟨by simpa using h, by simp⟩
  simpa using (hall l l' [] _ _ hstart hrun).keeps

theorem Keeps.releaseProperty (h : Keeps n m) (k : Identity) :
    Keeps (fun j => n j - if j = k then 1 else 0) (releaseProperty m k) := by
  unfold Cache.releaseProperty
  cases hg : m.get? k with
  | none =>
    have hzero := h.get?_eq_none_iff.1 hg
    refine ⟨fun j => ?_, h.countsAs⟩
    rw [h.uses_eq]
    by_cases hj : j = k
    · simp [hj, hzero]
    · simp [hj]
  | some e =>
    obtain ⟨huses, hpos⟩ := h.uses_of_get? hg
    dsimp only
    split_ifs with hone
    · refine ⟨fun j => ?_, fun j e' he' => ?_⟩
      · rw [SortedMap.get?_erase]
        by_cases hj : j = k
        · have : n k - 1 = 0 := by omega
          simp [hj, this]
        · simpa [hj] using h.uses_eq j
      · rw [SortedMap.get?_erase] at he'
        split_ifs at he'
        exact h.countsAs j e' he'
    · refine ⟨fun j => ?_, fun j e' he' => ?_⟩
      · rw [SortedMap.get?_insert]
        by_cases hj : j = k
        · obtain ⟨i, hi⟩ : ∃ i, n k = i + 2 := ⟨n k - 2, by omega⟩
          simp [hj, huses, hi]
        · simpa [hj] using h.uses_eq j
      · rw [SortedMap.get?_insert] at he'
        split_ifs at he' with hj
        · rw [← Option.some.inj he', hj]
          exact h.countsAs k e hg
        · exact h.countsAs j e' he'

/-- Properties released one by one, each once. -/
theorem Keeps.releaseAll (h : Keeps n m) {ks : List Identity} (hks : ks.Nodup) :
    Keeps (fun j => n j - if j ∈ ks then 1 else 0) (ks.foldl Cache.releaseProperty m) := by
  induction ks generalizing n m with
  | nil => simpa using h
  | cons k ks ih =>
    obtain ⟨hout, hks⟩ := List.nodup_cons.1 hks
    refine (ih (h.releaseProperty k) hks).congr fun j => ?_
    by_cases hj : j = k
    · simp [hj, hout]
    · simp [hj]

private theorem nodup_eraseDups {l : List Identity} : l.eraseDups.Nodup := by
  induction hn : l.length using Nat.strongRecOn generalizing l with
  | ind i ih =>
    cases l with
    | nil => simp
    | cons a l =>
      rw [List.eraseDups_cons, List.nodup_cons]
      refine ⟨by simp, ih (l.filter (!· == a)).length ?_ rfl⟩
      have := List.length_filter_le (!· == a) l
      rw [List.length_cons] at hn
      omega

theorem nodup_countedProperties (schema : Schema) : (countedProperties schema).Nodup :=
  nodup_eraseDups

/-- The properties that are released are those that are counted, except those of the database of the
built-in objects. -/
theorem mem_countedProperties_iff {schema : Schema} :
    k ∈ countedProperties schema ↔ k.database.isBuiltin = false ∧ schema.counts k := by
  simp only [countedProperties, List.mem_eraseDups, List.mem_filterMap, List.mem_filter,
    Schema.counts, List.any_eq_true, Bool.not_eq_eq_eq_not, Bool.not_true]
  constructor
  · rintro ⟨p, ⟨hp, hbuiltin⟩, hk⟩
    rw [Property.isBuiltin_eq hk] at hbuiltin
    refine ⟨hbuiltin, p, hp, Property.countsAs_iff.2 ⟨?_, hk⟩⟩
    simp [Property.isPinned, Property.isBuiltin_eq hk, hbuiltin]
  · rintro ⟨hbuiltin, p, hp, hcounts⟩
    obtain ⟨-, hk⟩ := Property.countsAs_iff.1 hcounts
    exact ⟨p, ⟨hp, by rw [Property.isBuiltin_eq hk, hbuiltin]⟩, hk⟩

end Cache

end ChronicleMeta
