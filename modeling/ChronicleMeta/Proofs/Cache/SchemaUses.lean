import ChronicleMeta.Proofs.Cache.Accounting
import ChronicleMeta.Proofs.SortedMap

/-! The uses of a schema are the cached chronicles that hold it. -/

namespace ChronicleMeta

def SharedSchema.isOf (k : Identity) (s : SharedSchema) : Bool := s.schema.surrogate.identity? = some k

theorem SharedSchema.isOf_eq_false {k k' : Identity} {s : SharedSchema}
    (h : s.schema.surrogate.identity? = some k) (hne : k' ≠ k) : s.isOf k' = false := by
  simp [isOf, h, Ne.symm hne]

theorem Schema.mapProperties_eq_ok {σ : Type} {f : PropertyMap σ} {s t : Schema} {a b : σ}
    (h : (s.mapProperties f).run a = .ok (t, b)) :
    ∃ d, (s.definitions.mapProperties f).run a = .ok (d, b) ∧ t = { s with definitions := d } := by
  obtain ⟨d, b', hd, h⟩ := run_bind_eq_ok_iff.1 h
  obtain ⟨rfl, rfl⟩ := run_pure_eq_ok_iff.1 h
  exact ⟨d, hd, rfl⟩

namespace Cache

/-- The schemas are counted by their users, each of which holds the schema that is counted. -/
structure Tallied (c : Cache) (users : List SharedSchema) : Prop where
  /-- A schema has as many uses as users, and is not there without one. -/
  uses_eq : ∀ k, (c.schemas.get? k).map (·.uses) = positive? (users.countP (·.isOf k))
  shared : ∀ s ∈ users, ∃ k, s.schema.surrogate.identity? = some k ∧
    (c.schemas.get? k).map (·.value) = some s

variable {c c' : Cache} {users : List SharedSchema} {s : SharedSchema} {k : Identity}

theorem tallied_nil (h : c.schemas = ∅) : Tallied c [] where
  uses_eq k := by simp [h]
  shared := by simp

/-- A shared schema has users, and is one of them. -/
theorem Tallied.mem_users (h : Tallied c users) {n : Nat} (hg : c.schemas.get? k = some ⟨n, s⟩) :
    n = users.countP (·.isOf k) ∧ s ∈ users ∧ s.schema.surrogate.identity? = some k := by
  have huses := h.uses_eq k
  rw [hg] at huses
  cases hn : users.countP (·.isOf k) with
  | zero => simp [hn] at huses
  | succ m =>
    obtain rfl : n = m + 1 := by simpa [hn] using huses
    have hpos : 0 < users.countP (·.isOf k) := by omega
    obtain ⟨u, hu, hk⟩ := List.countP_pos_iff.1 hpos
    obtain ⟨k', hk', hv⟩ := h.shared u hu
    obtain rfl : k' = k := by simpa [SharedSchema.isOf, hk'] using hk
    obtain rfl : s = u := by simpa [hg] using hv
    exact ⟨rfl, hu, hk'⟩

/-- A schema that is not shared has no users. -/
theorem Tallied.not_isOf (h : Tallied c users) (hg : c.schemas.get? k = none) :
    ∀ u ∈ users, u.isOf k = false := by
  have huses := h.uses_eq k
  rw [hg, Option.map_none, eq_comm, positive?_eq_none_iff, List.countP_eq_zero] at huses
  simpa using huses

/-- A use more for the schema that is shared, or a first use for one that is not, makes a user more. -/
theorem Tallied.cons (h : Tallied c users) (hs : s.schema.surrogate.identity? = some k)
    (hold : c.schemas.get? k = none ∨ ∃ n, c.schemas.get? k = some ⟨n, s⟩)
    (hnew : c'.schemas = c.schemas.insert k ⟨users.countP (·.isOf k) + 1, s⟩) :
    Tallied c' (s :: users) := by
  have hself : s.isOf k = true := by simp [SharedSchema.isOf, hs]
  refine ⟨fun k' => ?_, fun u hu => ?_⟩
  · rw [hnew, SortedMap.get?_insert]
    split_ifs with hk
    · rw [hk, List.countP_cons_of_pos hself]
      rfl
    · rw [h.uses_eq, List.countP_cons_of_neg (by simp [SharedSchema.isOf_eq_false hs hk])]
  · rcases List.mem_cons.1 hu with rfl | hu
    · exact ⟨k, hs, by simp [hnew]⟩
    · obtain ⟨k', hk', hv⟩ := h.shared u hu
      refine ⟨k', hk', ?_⟩
      rw [hnew, SortedMap.get?_insert]
      split_ifs with hk
      · subst hk
        rcases hold with hnone | ⟨n, hsome⟩
        · simp [hnone] at hv
        · simpa [hsome] using hv
      · exact hv

theorem Tallied.acquire {schema : Schema} (h : Tallied c users)
    (hk : schema.surrogate.identity? = some k) (ha : c.acquireSchema k schema = .ok (s, c')) :
    Tallied c' (s :: users) := by
  obtain ⟨n, hg, rfl⟩ | ⟨hg, copy, sharing, hrun, rfl, rfl⟩ := acquireSchema_eq_ok ha
  · obtain ⟨rfl, -, hs⟩ := h.mem_users hg
    exact h.cons hs (.inr ⟨_, hg⟩) rfl
  · obtain ⟨d, -, rfl⟩ := Schema.mapProperties_eq_ok hrun
    have hzero : users.countP (·.isOf k) = 0 := by
      rw [List.countP_eq_zero]
      simpa using h.not_isOf hg
    exact h.cons (s := { schema := { schema with definitions := d }, origin := _ }) hk (.inl hg)
      (by rw [hzero])

/-- A user can be released: its schema has an identity and is counted. -/
theorem Tallied.release (h : Tallied c (s :: users)) :
    ∃ c', c.releaseSchema s.schema = .ok c' ∧ Tallied c' users := by
  obtain ⟨k, hk, hv⟩ := h.shared s List.mem_cons_self
  obtain ⟨⟨n, s'⟩, hg, hs'⟩ := Option.map_eq_some_iff.1 hv
  obtain rfl : s' = s := hs'
  have hself : s'.isOf k = true := by simp [SharedSchema.isOf, hk]
  obtain ⟨hn, -, -⟩ := h.mem_users hg
  rw [List.countP_cons_of_pos hself] at hn
  have hother : ∀ k', k' ≠ k → (s' :: users).countP (·.isOf k') = users.countP (·.isOf k') :=
    fun k' hne => List.countP_cons_of_neg (by simp [SharedSchema.isOf_eq_false hk hne])
  have hcommitted : s'.schema.surrogate.committedIdentity = .ok k := by
    simp [Surrogate.committedIdentity, hk]
  unfold releaseSchema
  rw [hcommitted, ok_bind, hg, hn]
  cases hm : users.countP (·.isOf k) with
  | zero =>
    refine ⟨_, rfl, fun k' => ?_, fun u hu => ?_⟩
    · rw [SortedMap.get?_erase]
      split_ifs with hkk
      · rw [hkk, hm]
        rfl
      · rw [h.uses_eq, hother k' hkk]
    · obtain ⟨k', hk', hv'⟩ := h.shared u (List.mem_cons_of_mem _ hu)
      have hne : k' ≠ k := by
        rintro rfl
        exact List.countP_eq_zero.1 hm u hu (by simp [SharedSchema.isOf, hk'])
      exact ⟨k', hk', by simpa [SortedMap.get?_erase, hne] using hv'⟩
  | succ m =>
    refine ⟨_, rfl, fun k' => ?_, fun u hu => ?_⟩
    · rw [SortedMap.get?_insert]
      split_ifs with hkk
      · rw [hkk, hm]
        rfl
      · rw [h.uses_eq, hother k' hkk]
    · obtain ⟨k', hk', hv'⟩ := h.shared u (List.mem_cons_of_mem _ hu)
      refine ⟨k', hk', ?_⟩
      rw [SortedMap.get?_insert]
      split_ifs with hkk
      · subst hkk
        simpa [hg] using hv'
      · exact hv'

theorem account_tallied : Account Tallied where
  frame hs _ _ h := ⟨by rw [hs]; exact h.uses_eq, by rw [hs]; exact h.shared⟩
  perm hp h := ⟨fun k => by rw [h.uses_eq, hp.countP_eq],
    fun s hs => h.shared s (hp.mem_iff.2 hs)⟩
  release := Tallied.release

/-- The chronicles have keys of their own, and the schemas are counted by them. -/
structure Counts (c : Cache) : Prop where
  unique : c.chronicles.Unique
  tallied : Tallied c c.users

theorem counts_empty (capacity : Nat) (h : 0 < capacity) : (Cache.empty capacity h).Counts :=
  ⟨Recency.unique_nil, tallied_nil rfl⟩

theorem Counts.serve (h : c.Counts) (r : Request) :
    (c.serve r).state.Counts ∧ ∀ f, (c.serve r).result ≠ .error (.fault f) := by
  obtain ⟨hu, ht, hf⟩ := account_tallied.serve h.unique h.tallied r
    (fun _ => tallied_nil rfl) fun chronicle _ k shared c₁ hk ha => h.tallied.acquire hk ha
  exact ⟨⟨hu, ht⟩, hf⟩

theorem counts_run (capacity : Nat) (h : 0 < capacity) (rs : List Request) :
    ((Cache.empty capacity h).run rs).Counts :=
  run_invariant (P := Counts) (fun _ r hc => (hc.serve r).1) (counts_empty capacity h) rs

private theorem countP_users (c : Cache) (x : Surrogate) (hx : x.identity? = some k) :
    c.users.countP (·.isOf k) =
      c.chronicles.countP fun e => e.2.schema.schema.surrogate.agrees x := by
  rw [users, List.countP_map]
  refine List.countP_congr fun e _ => ?_
  cases hs : e.2.schema.schema.surrogate.identity? <;>
    simp [SharedSchema.isOf, Surrogate.agrees, hx, hs]

/-- After any requests to a cache, each schema has as many uses as there are cached chronicles of
its identity, and is not there if there are none; each cached chronicle holds the very schema that
is counted; and no further request breaches an invariant. -/
theorem schemaUses_run (capacity : Nat) (h : 0 < capacity) (rs : List Request) :
    (∀ x, ((Cache.empty capacity h).run rs).schemaUses? x =
      positive? (((Cache.empty capacity h).run rs).chronicles.countP
        fun e => e.2.schema.schema.surrogate.agrees x)) ∧
    (∀ e ∈ ((Cache.empty capacity h).run rs).chronicles,
      ((Cache.empty capacity h).run rs).schema? e.2.schema.schema.surrogate = some e.2.schema) ∧
    ∀ r f, (((Cache.empty capacity h).run rs).serve r).result ≠ .error (.fault f) := by
  have hc := counts_run capacity h rs
  refine ⟨fun x => ?_, fun e he => ?_, fun r => (hc.serve r).2⟩
  · cases hx : x.identity? with
    | none => simp [schemaUses?, Surrogate.agrees, hx]
    | some k =>
      rw [← countP_users _ x hx, ← hc.tallied.uses_eq]
      simp [schemaUses?, hx]
  · obtain ⟨k, hk, hv⟩ := hc.tallied.shared e.2.schema (List.mem_map_of_mem he)
    simpa [schema?, hk] using hv

def sampleSchema : Schema where
  surrogate := .committed ⟨1⟩ .schema 1
  name := "s"
  definitions := {}
  dependencies := []

def sampleChronicle (id : UInt64) (name : String) : Chronicle where
  surrogate := .committed ⟨1⟩ .chronicle id
  name
  fullName := name
  schema := { schema := sampleSchema }

/-- Two chronicles of one schema, of which the second displaces the first where there is room for
only one. -/
theorem schemaUses_run_sample :
    ((Cache.empty 1 Nat.one_pos).run
      [.store (sampleChronicle 1 "a"), .store (sampleChronicle 2 "b")]).schemaUses?
        sampleSchema.surrogate = some 1 ∧
    ∀ r f, (((Cache.empty 1 Nat.one_pos).run
      [.store (sampleChronicle 1 "a"), .store (sampleChronicle 2 "b")]).serve r).result ≠
        .error (.fault f) := by
  obtain ⟨huses, -, hfaults⟩ := schemaUses_run 1 Nat.one_pos
    [.store (sampleChronicle 1 "a"), .store (sampleChronicle 2 "b")]
  refine ⟨?_, hfaults⟩
  rw [huses]
  rfl

end Cache

end ChronicleMeta
