import ChronicleMeta.Proofs.Cache.Recency
import ChronicleMeta.Proofs.Cache.Request
import ChronicleMeta.Proofs.Outcome
import ChronicleMeta.Proofs.Surrogate

/-!
What the operations of a cache do to the schemas that its chronicles hold: each chronicle placed is
accounted for before the one it displaces is released.
-/

namespace ChronicleMeta.Cache

/-- A count of which nothing is kept where it is zero. -/
def positive? (n : Nat) : Option Nat := if n = 0 then none else some n

@[simp] theorem positive?_zero : positive? 0 = none := rfl

@[simp] theorem positive?_succ (n : Nat) : positive? (n + 1) = some (n + 1) := rfl

theorem positive?_eq_none_iff {n : Nat} : positive? n = none ↔ n = 0 := by
  cases n <;> simp

theorem positive?_inj {m n : Nat} : positive? m = positive? n ↔ m = n := by
  cases m <;> cases n <;> simp

/-- The shared schemas that the chronicles hold, one for each chronicle. -/
def users (c : Cache) : List SharedSchema := c.chronicles.map (·.2.schema)

/-- Relations between what a cache shares and a list of its users that survive the release of a
user. They say nothing about the rest of the cache and the order of the users. -/
structure Account (P : Cache → List SharedSchema → Prop) : Prop where
  frame : ∀ {c c' users}, c'.schemas = c.schemas → c'.properties = c.properties →
    c'.copies = c.copies → P c users → P c' users
  perm : ∀ {c users users'}, users.Perm users' → P c users → P c users'
  release : ∀ {c s users}, P c (s :: users) →
    ∃ c', c.releaseSchema s.schema = .ok c' ∧ P c' users

/-- All that the release of a schema can do. -/
theorem releaseSchema_eq_ok {c c' : Cache} {schema : Schema} (h : c.releaseSchema schema = .ok c') :
    ∃ k, schema.surrogate.identity? = some k ∧
      (c.schemas.get? k = none ∧ c' = c ∨
        (∃ s, c.schemas.get? k = some ⟨1, s⟩ ∧ c' = { c with
          schemas := c.schemas.erase k
          properties := (countedProperties schema).foldl releaseProperty c.properties }) ∨
        ∃ n s, c.schemas.get? k = some ⟨n + 2, s⟩ ∧
          c' = { c with schemas := c.schemas.insert k ⟨n + 1, s⟩ }) := by
  obtain ⟨k, hk, h⟩ := bind_eq_ok_iff.1 h
  have hk : schema.surrogate.identity? = some k := by
    unfold Surrogate.committedIdentity at hk
    split at hk
    next k' hk' => rw [hk', Except.ok.inj hk]
    next => cases hk
  refine ⟨k, hk, ?_⟩
  split at h
  next hnone => exact .inl ⟨hnone, (Except.ok.inj h).symm⟩
  next => cases h
  next s hone => exact .inr (.inl ⟨s, hone, (Except.ok.inj h).symm⟩)
  next n s hmany => exact .inr (.inr ⟨n, s, hmany, (Except.ok.inj h).symm⟩)

/-- A release changes only what is shared. -/
theorem releaseSchema_frame {c c' : Cache} {schema : Schema} (h : c.releaseSchema schema = .ok c') :
    c' = { c with schemas := c'.schemas, properties := c'.properties } := by
  obtain ⟨k, -, ⟨-, rfl⟩ | ⟨s, -, rfl⟩ | ⟨n, s, -, rfl⟩⟩ := releaseSchema_eq_ok h <;> rfl

@[simp] theorem schemas_forgetName (c : Cache) (k : Identity) (chronicle : Chronicle) :
    (c.forgetName k chronicle).schemas = c.schemas := by
  unfold forgetName
  split_ifs <;> rfl

@[simp] theorem properties_forgetName (c : Cache) (k : Identity) (chronicle : Chronicle) :
    (c.forgetName k chronicle).properties = c.properties := by
  unfold forgetName
  split_ifs <;> rfl

@[simp] theorem chronicles_forgetName (c : Cache) (k : Identity) (chronicle : Chronicle) :
    (c.forgetName k chronicle).chronicles = c.chronicles := by
  unfold forgetName
  split_ifs <;> rfl

@[simp] theorem capacity_forgetName (c : Cache) (k : Identity) (chronicle : Chronicle) :
    (c.forgetName k chronicle).capacity = c.capacity := by
  unfold forgetName
  split_ifs <;> rfl

@[simp] theorem copies_forgetName (c : Cache) (k : Identity) (chronicle : Chronicle) :
    (c.forgetName k chronicle).copies = c.copies := by
  unfold forgetName
  split_ifs <;> rfl

@[simp] theorem stats_forgetName (c : Cache) (k : Identity) (chronicle : Chronicle) :
    (c.forgetName k chronicle).stats = c.stats := by
  unfold forgetName
  split_ifs <;> rfl

theorem names_forgetName (c : Cache) (k : Identity) (chronicle : Chronicle) :
    (c.forgetName k chronicle).names = if c.names.get? chronicle.fullName = some k then
      c.names.erase chronicle.fullName else c.names := by
  unfold forgetName
  split_ifs <;> rfl

theorem lookUp_found (c : Cache) (s : Surrogate) :
    (c.lookUp s).1 = s.identity?.bind c.chronicles.get? := by
  unfold lookUp
  cases s.identity? <;> rfl

theorem lookUpName_found (c : Cache) (fullName : String) :
    (c.lookUpName fullName).1 = (c.names.get? fullName).bind c.chronicles.get? := by
  unfold lookUpName
  cases c.names.get? fullName <;> rfl

/-- A look-up changes only the order of the chronicles and what the cache has done. -/
theorem lookUp_state {c : Cache} (hu : c.chronicles.Unique) (s : Surrogate) :
    ∃ chronicles stats, (c.lookUp s).2 = { c with chronicles, stats } ∧
      c.chronicles.Perm chronicles := by
  unfold lookUp
  cases s.identity? with
  | none => exact ⟨_, _, rfl, .refl _⟩
  | some k => exact ⟨_, _, rfl, (Recency.perm_promote hu k).symm⟩

theorem lookUpName_state {c : Cache} (hu : c.chronicles.Unique) (fullName : String) :
    ∃ chronicles stats, (c.lookUpName fullName).2 = { c with chronicles, stats } ∧
      c.chronicles.Perm chronicles := by
  unfold lookUpName
  cases c.names.get? fullName with
  | none => exact ⟨_, _, rfl, .refl _⟩
  | some k => exact ⟨_, _, rfl, (Recency.perm_promote hu k).symm⟩

variable {P : Cache → List SharedSchema → Prop}

/-- The release of a chronicle that is not in the list any more. -/
theorem Account.releaseChronicle (hP : Account P) {c : Cache} {k : Identity} {chronicle : Chronicle}
    {users : List SharedSchema} (h : P c (chronicle.schema :: users)) :
    ∃ c', c.release k chronicle = .ok c' ∧ P c' users ∧ c'.chronicles = c.chronicles ∧
      c'.capacity = c.capacity ∧ c'.copies = c.copies ∧ c'.stats = c.stats ∧
      c'.names = (c.forgetName k chronicle).names := by
  obtain ⟨c', hc', hP'⟩ := hP.release (c := c.forgetName k chronicle)
    (hP.frame (schemas_forgetName c k chronicle) (properties_forgetName c k chronicle)
      (copies_forgetName c k chronicle) h)
  have hframe := releaseSchema_frame hc'
  refine ⟨c', hc', hP', ?_, ?_, ?_, ?_, ?_⟩ <;> rw [hframe]
  · exact chronicles_forgetName c k chronicle
  · exact capacity_forgetName c k chronicle
  · exact copies_forgetName c k chronicle
  · exact stats_forgetName c k chronicle

/-- The names without those that lead to what is displaced. -/
def namesWithout (c : Cache) : Option (Identity × Chronicle) → SortedMap String Identity
  | none => c.names
  | some (k, chronicle) => (c.forgetName k chronicle).names

/-- What the cache has done once a chronicle is placed under `k` that displaces another. -/
def statsWith (c : Cache) (k : Identity) (displaced : Option (Identity × Chronicle)) : CacheStats :=
  { c.stats with
    stores := c.stats.stores + 1
    evictions := c.stats.evictions + if displaced.any (·.1 ≠ k) then 1 else 0 }

/-- A chronicle whose schema is accounted for can be placed, and is a user from then on. -/
theorem Account.place (hP : Account P) {c : Cache} (hu : c.chronicles.Unique) (k : Identity)
    (chronicle : Chronicle) (h : P c (chronicle.schema :: c.users)) :
    ∃ c', c.place k chronicle = .ok c' ∧ P c' c'.users ∧
      c'.chronicles = (c.chronicles.push c.capacity k chronicle).2 ∧ c'.capacity = c.capacity ∧
      c'.copies = c.copies ∧ c'.names = (c.namesWithout (c.chronicles.push c.capacity k chronicle).1).insert
        chronicle.fullName k ∧
      c'.stats = c.statsWith k (c.chronicles.push c.capacity k chronicle).1 := by
  obtain ⟨rest, hfront, -, -, hperm⟩ := Recency.push_eq hu c.capacity k chronicle
  have husers : (c.chronicles.push c.capacity k chronicle).2.map (·.2.schema) =
      chronicle.schema :: rest.map (·.2.schema) := by rw [hfront, List.map_cons]
  cases hd : (c.chronicles.push c.capacity k chronicle).1 with
  | none =>
    rw [hd] at hperm
    refine ⟨{ c with
      chronicles := (c.chronicles.push c.capacity k chronicle).2
      names := c.names.insert chronicle.fullName k
      stats := { c.stats with stores := c.stats.stores + 1 } }, ?_, ?_, rfl, rfl, rfl, rfl, rfl⟩
    · simp only [Cache.place, hd]
      rfl
    · rw [users, husers]
      exact hP.frame (c := c) rfl rfl rfl (hP.perm ((hperm.map (·.2.schema)).cons _) h)
  | some displaced =>
    obtain ⟨old, dropped⟩ := displaced
    rw [hd] at hperm
    have hswap : (chronicle.schema :: c.users).Perm
        (dropped.schema :: chronicle.schema :: rest.map (·.2.schema)) :=
      ((hperm.map (·.2.schema)).cons _).trans (List.Perm.swap _ _ _)
    let c₁ : Cache := { c with
      chronicles := (c.chronicles.push c.capacity k chronicle).2
      stats := { c.stats with
        stores := c.stats.stores + 1
        evictions := c.stats.evictions + if old = k then 0 else 1 } }
    obtain ⟨c', hc', hP', hchron, hcap, hcopies, hstats, hnames⟩ :=
      hP.releaseChronicle (c := c₁) (k := old) (hP.perm hswap (hP.frame (c := c) rfl rfl rfl h))
    refine ⟨{ c' with names := c'.names.insert chronicle.fullName k }, ?_, ?_, hchron, hcap,
      hcopies, ?_, ?_⟩
    · simp only [Cache.place, hd]
      exact bind_eq_ok_iff.2 ⟨c', hc', rfl⟩
    · rw [users, hchron, husers]
      exact hP.frame (c := c') rfl rfl rfl hP'
    · simp only [hnames, namesWithout, names_forgetName]
      rfl
    · rw [hstats, statsWith]
      by_cases hold : old = k
      · simp [c₁, hold]
      · simp [c₁, hold]

/-- A chronicle can be dropped, and is no user any more. -/
theorem Account.clearChronicle (hP : Account P) {c : Cache} (hu : c.chronicles.Unique)
    (h : P c c.users) (s : Surrogate) :
    ∃ b c', c.clearChronicle s = .ok c' b ∧ P c' c'.users ∧ c'.capacity = c.capacity ∧
      c'.copies = c.copies ∧ c'.stats = c.stats ∧
      ((b = false ∧ c' = c ∧ ∀ k, s.identity? = some k → c.chronicles.get? k = none) ∨
        ∃ k chronicle, b = true ∧ s.identity? = some k ∧ c.chronicles.get? k = some chronicle ∧
          c'.chronicles = c.chronicles.erase k ∧ c'.names = (c.forgetName k chronicle).names) := by
  unfold Cache.clearChronicle
  cases hk : s.identity? with
  | none => exact ⟨false, c, rfl, h, rfl, rfl, rfl, .inl ⟨rfl, rfl, by simp⟩⟩
  | some k =>
    cases hg : c.chronicles.get? k with
    | none =>
      exact ⟨false, c, by simp [hg]; rfl, h, rfl, rfl, rfl, .inl ⟨rfl, rfl, by simpa using hg⟩⟩
    | some chronicle =>
      have hperm := (Recency.perm_cons_erase hu hg).map (·.2.schema)
      let c₁ : Cache := { c with chronicles := c.chronicles.erase k }
      obtain ⟨c', hc', hP', hchron, hcap, hcopies, hstats, hnames⟩ :=
        hP.releaseChronicle (c := c₁) (k := k) (hP.perm hperm (hP.frame (c := c) rfl rfl rfl h))
      refine ⟨true, c', ?_, ?_, hcap, hcopies, hstats, .inr ⟨k, chronicle, rfl, rfl, hg, hchron, ?_⟩⟩
      · simp only [Option.bind_some, hg, Option.map_some, c₁] at hc' ⊢
        rw [hc']
        rfl
      · rw [users, hchron]
        exact hP'
      · rw [hnames, names_forgetName, names_forgetName]

/-- All that taking a schema up can do: the shared copy is used once more, or one is made. -/
theorem acquireSchema_eq_ok {c c' : Cache} {k : Identity} {schema : Schema} {shared : SharedSchema}
    (h : c.acquireSchema k schema = .ok (shared, c')) :
    (∃ n, c.schemas.get? k = some ⟨n, shared⟩ ∧
      c' = { c with schemas := c.schemas.insert k ⟨n + 1, shared⟩ }) ∨
    c.schemas.get? k = none ∧ ∃ copy sharing,
      (schema.mapProperties share).run { properties := c.properties } = .ok (copy, sharing) ∧
      shared = { schema := copy, origin := some (.cached c.copies) } ∧
      c' = { c with
        schemas := c.schemas.insert k ⟨1, shared⟩
        properties := sharing.properties
        copies := c.copies + 1 } := by
  unfold acquireSchema at h
  split at h
  next entry hentry =>
    simp only [Except.ok.injEq, Prod.mk.injEq] at h
    obtain ⟨rfl, rfl⟩ := h
    exact .inl ⟨entry.uses, hentry, rfl⟩
  next hnone =>
    obtain ⟨⟨copy, sharing⟩, hrun, h⟩ := bind_eq_ok_iff.1 h
    simp only [pure, Except.pure, Except.ok.injEq, Prod.mk.injEq] at h
    obtain ⟨rfl, rfl⟩ := h
    exact .inr ⟨hnone, copy, sharing, hrun, rfl, rfl⟩

/-- Taking a schema up changes only what is shared. -/
theorem acquireSchema_frame {c c' : Cache} {k : Identity} {schema : Schema} {shared : SharedSchema}
    (h : c.acquireSchema k schema = .ok (shared, c')) :
    c'.chronicles = c.chronicles ∧ c'.capacity = c.capacity ∧ c'.names = c.names ∧
      c'.stats = c.stats := by
  obtain ⟨n, -, rfl⟩ | ⟨-, copy, sharing, -, -, rfl⟩ := acquireSchema_eq_ok h <;>
    exact ⟨rfl, rfl, rfl, rfl⟩

/-- All that storing a chronicle can do: fail with an error and change nothing, find an equal one and
make it the latest used, or take the schema up and place the chronicle. -/
theorem store_cases (c : Cache) (chronicle : Chronicle) :
    (∃ e, c.store chronicle = .fail c (.error e) ∧
      ∀ k ks, chronicle.surrogate.identity? = some k →
        chronicle.schema.schema.surrogate.identity? = some ks →
          c.acquireSchema ks chronicle.schema.schema = .error e) ∨
    (∃ k cached, chronicle.surrogate.identity? = some k ∧ c.chronicles.get? k = some cached ∧
      cached.agrees chronicle ∧
      c.store chronicle = .ok { c with chronicles := c.chronicles.promote k } none) ∨
    ∃ k ks shared c₁, chronicle.surrogate.identity? = some k ∧
      chronicle.schema.schema.surrogate.identity? = some ks ∧
      c.acquireSchema ks chronicle.schema.schema = .ok (shared, c₁) ∧
      ∀ c', c₁.place k { chronicle with schema := shared } = .ok c' →
        c.store chronicle = .ok c' (some { chronicle with schema := shared }) := by
  unfold Cache.store
  cases hk : chronicle.surrogate.identity with
  | error e =>
    refine .inl ⟨e, rfl, fun k _ hk' _ => ?_⟩
    rw [Surrogate.identity_eq_ok_iff.2 hk'] at hk
    cases hk
  | ok k =>
    cases hks : chronicle.schema.schema.surrogate.identity with
    | error e =>
      refine .inl ⟨e, rfl, fun _ ks _ hks' => ?_⟩
      rw [Surrogate.identity_eq_ok_iff.2 hks'] at hks
      cases hks
    | ok ks =>
      have hk := Surrogate.identity_eq_ok_iff.1 hk
      have hks := Surrogate.identity_eq_ok_iff.1 hks
      by_cases hsame : ∃ cached, c.chronicles.get? k = some cached ∧ cached.agrees chronicle
      · obtain ⟨cached, hg, hagree⟩ := hsame
        refine .inr (.inl ⟨k, cached, hk, hg, hagree, ?_⟩)
        simp only [lift_ok, ok_bind, hg, Option.any_some, hagree, if_true]
        rfl
      · have hother : (c.chronicles.get? k).any (·.agrees chronicle) = false := by
          cases hg : c.chronicles.get? k <;> simp_all
        simp only [lift_ok, ok_bind, hother, Bool.false_eq_true, if_false]
        cases hacq : c.acquireSchema ks chronicle.schema.schema with
        | error e =>
          refine .inl ⟨e, rfl, fun _ ks' _ hks' => ?_⟩
          obtain rfl : ks = ks' := Option.some.inj (hks.symm.trans hks')
          exact hacq
        | ok r =>
          refine .inr (.inr ⟨k, ks, r.1, r.2, hk, hks, hacq, fun c' hc' => ?_⟩)
          simp only [lift_ok, ok_bind, hc', lift_ok_fault]
          rfl

/-- Storing a chronicle keeps the account, if taking its schema up does. -/
theorem Account.store (hP : Account P) {c : Cache} (hu : c.chronicles.Unique) (chronicle : Chronicle)
    (hacquire : ∀ k shared c₁, chronicle.schema.schema.surrogate.identity? = some k →
      c.acquireSchema k chronicle.schema.schema = .ok (shared, c₁) → P c₁ (shared :: c.users)) :
    (∃ e, c.store chronicle = .fail c (.error e) ∧
      ∀ k ks, chronicle.surrogate.identity? = some k →
        chronicle.schema.schema.surrogate.identity? = some ks →
          c.acquireSchema ks chronicle.schema.schema = .error e) ∨
    (∃ k cached, chronicle.surrogate.identity? = some k ∧ c.chronicles.get? k = some cached ∧
      cached.agrees chronicle ∧
      c.store chronicle = .ok { c with chronicles := c.chronicles.promote k } none) ∨
    ∃ k ks shared c₁ c', chronicle.surrogate.identity? = some k ∧
      chronicle.schema.schema.surrogate.identity? = some ks ∧
      c.acquireSchema ks chronicle.schema.schema = .ok (shared, c₁) ∧
      c.store chronicle = .ok c' (some { chronicle with schema := shared }) ∧ P c' c'.users ∧
      c'.chronicles = (c.chronicles.push c.capacity k { chronicle with schema := shared }).2 ∧
      c'.capacity = c.capacity ∧ c'.copies = c₁.copies ∧
      c'.names = (c.namesWithout
        (c.chronicles.push c.capacity k { chronicle with schema := shared }).1).insert
          chronicle.fullName k ∧
      c'.stats = c.statsWith k
        (c.chronicles.push c.capacity k { chronicle with schema := shared }).1 := by
  refine (store_cases c chronicle).imp_right (Or.imp_right ?_)
  rintro ⟨k, ks, shared, c₁, hk, hks, hacq, hstore⟩
  obtain ⟨hchron, hcap, hnames, hstats⟩ := acquireSchema_frame hacq
  have hP₁ : P c₁ (shared :: c₁.users) := by
    rw [users, hchron]
    exact hacquire ks shared c₁ hks hacq
  obtain ⟨c', hc', hP', hchron', hcap', hcopies, hnames', hstats'⟩ :=
    hP.place (hchron ▸ hu) k { chronicle with schema := shared } hP₁
  refine ⟨k, ks, shared, c₁, c', hk, hks, hacq, hstore c' hc', hP', ?_, ?_, hcopies, ?_, ?_⟩
  · rw [hchron', hchron, hcap]
  · rw [hcap', hcap]
  · rw [hnames', hchron, hcap]
    cases (c.chronicles.push c.capacity k { chronicle with schema := shared }).1 with
    | none => simp [namesWithout, hnames]
    | some displaced => simp [namesWithout, names_forgetName, hnames]
  · rw [hstats', statsWith, statsWith, hchron, hcap, hstats]

/-- No request breaches an invariant or loses the account, if that of schemas taken up is kept. -/
theorem Account.serve (hP : Account P) {c : Cache} (hu : c.chronicles.Unique) (h : P c c.users)
    (r : Request) (hclear : r = .clear → P c.clear [])
    (hacquire : ∀ chronicle, r = .store chronicle → ∀ k shared c₁,
      chronicle.schema.schema.surrogate.identity? = some k →
      c.acquireSchema k chronicle.schema.schema = .ok (shared, c₁) → P c₁ (shared :: c.users)) :
    (c.serve r).state.chronicles.Unique ∧ P (c.serve r).state (c.serve r).state.users ∧
      ∀ f, (c.serve r).result ≠ .error (.fault f) := by
  cases r with
  | store chronicle =>
    rcases hP.store hu chronicle (hacquire chronicle rfl) with
      ⟨e, hs, -⟩ | ⟨k, cached, -, -, -, hs⟩ | ⟨k, ks, shared, c₁, c', -, -, -, hs, hP', hchron, -⟩
    · rw [Cache.serve, hs]
      exact ⟨hu, h, by simp [Outcome.map, Outcome.fail, Except.map]⟩
    · have hp := (Recency.perm_promote hu k).symm
      rw [Cache.serve, hs]
      exact ⟨hu.perm hp, hP.frame (c := c) rfl rfl rfl (hP.perm (hp.map (·.2.schema)) h),
        by simp [Outcome.map, Outcome.ok, Except.map]⟩
    · rw [Cache.serve, hs]
      refine ⟨?_, hP', by simp [Outcome.map, Outcome.ok, Except.map]⟩
      rw [Outcome.map, Outcome.ok, hchron]
      exact Recency.unique_push hu _ _ _
  | lookUp s =>
    obtain ⟨chronicles, stats, hs, hp⟩ := lookUp_state hu s
    refine ⟨?_, ?_, by simp [Cache.serve, Outcome.ok]⟩ <;> rw [Cache.serve, Outcome.ok, hs]
    · exact hu.perm hp
    · exact hP.frame (c := c) rfl rfl rfl (hP.perm (hp.map (·.2.schema)) h)
  | lookUpName fullName =>
    obtain ⟨chronicles, stats, hs, hp⟩ := lookUpName_state hu fullName
    refine ⟨?_, ?_, by simp [Cache.serve, Outcome.ok]⟩ <;> rw [Cache.serve, Outcome.ok, hs]
    · exact hu.perm hp
    · exact hP.frame (c := c) rfl rfl rfl (hP.perm (hp.map (·.2.schema)) h)
  | clearChronicle s =>
    obtain ⟨b, c', hs, hP', -, -, -, hchron⟩ := hP.clearChronicle hu h s
    rw [Cache.serve, hs]
    refine ⟨?_, hP', by simp [Outcome.map, Outcome.ok, Except.map]⟩
    rcases hchron with ⟨-, rfl, -⟩ | ⟨k, chronicle, -, -, -, hchron, -⟩
    · exact hu
    · rw [Outcome.map, Outcome.ok, hchron]
      exact hu.erase k
  | clear => exact ⟨Recency.unique_nil, hclear rfl, by simp [Cache.serve, Outcome.ok]⟩
  | resetStats => exact ⟨hu, hP.frame (c := c) rfl rfl rfl h, by simp [Cache.serve, Outcome.ok]⟩

end ChronicleMeta.Cache
