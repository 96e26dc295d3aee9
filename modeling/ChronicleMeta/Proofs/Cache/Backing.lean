import ChronicleMeta.Proofs.Cache.SchemaUses
import ChronicleMeta.Proofs.Cache.Sharing
import ChronicleMeta.Proofs.PropertyMap

/-!
What a cache shares stands for objects outside of it. Where a schema is what the outside says it is
and its properties are too, the copy that the cache makes of it is the schema itself.
-/

namespace ChronicleMeta.Cache

variable {A : Identity → Schema → Prop} {B : Identity → Property → Prop} {c c' : Cache}
  {users : List SharedSchema} {s : SharedSchema} {k : Identity}

/-- Each shared schema and each shared property is what is told of its identity. -/
structure Backed (A : Identity → Schema → Prop) (B : Identity → Property → Prop) (c : Cache)
    (users : List SharedSchema) : Prop where
  tallied : Tallied c users
  schemas : ∀ k e, c.schemas.get? k = some e → A k e.value.schema
  properties : ∀ k e, c.properties.get? k = some e → B k e.value

theorem backed_nil (hs : c.schemas = ∅) (hp : c.properties = ∅) : Backed A B c [] where
  tallied := tallied_nil hs
  schemas := by simp [hs]
  properties := by simp [hp]

theorem Backed.schemas_of_mem (h : Backed A B c users) (hs : s ∈ users) :
    ∃ k, s.schema.surrogate.identity? = some k ∧ A k s.schema := by
  obtain ⟨k, hk, hv⟩ := h.tallied.shared s hs
  obtain ⟨e, he, rfl⟩ := Option.map_eq_some_iff.1 hv
  exact ⟨k, hk, h.schemas k e he⟩

theorem value_of_releaseProperty {m : SortedMap Identity (Counted Property)} {j : Identity}
    {e : Counted Property} (h : (releaseProperty m j).get? k = some e) :
    ∃ e', m.get? k = some e' ∧ e'.value = e.value := by
  unfold releaseProperty at h
  split at h
  next => exact ⟨e, h, rfl⟩
  next e' he' =>
    split_ifs at h
    · rw [SortedMap.get?_erase] at h
      split_ifs at h
      exact ⟨e, h, rfl⟩
    · rw [SortedMap.get?_insert] at h
      split_ifs at h with hk
      · exact ⟨e', hk ▸ he', by rw [← Option.some.inj h]⟩
      · exact ⟨e, h, rfl⟩

theorem value_of_releaseAll {ks : List Identity} {m : SortedMap Identity (Counted Property)}
    {e : Counted Property} (h : (ks.foldl releaseProperty m).get? k = some e) :
    ∃ e', m.get? k = some e' ∧ e'.value = e.value := by
  induction ks generalizing m with
  | nil => exact ⟨e, h, rfl⟩
  | cons j ks ih =>
    obtain ⟨e₁, he₁, hv₁⟩ := ih h
    obtain ⟨e₂, he₂, hv₂⟩ := value_of_releaseProperty he₁
    exact ⟨e₂, he₂, hv₂.trans hv₁⟩

theorem Backed.release (h : Backed A B c (s :: users)) :
    ∃ c', c.releaseSchema s.schema = .ok c' ∧ Backed A B c' users := by
  obtain ⟨c', hc, ht⟩ := h.tallied.release
  obtain ⟨k, -, ⟨-, rfl⟩ | ⟨t, -, rfl⟩ | ⟨n, t, hg, rfl⟩⟩ := releaseSchema_eq_ok hc
  · exact ⟨_, hc, ht, h.schemas, h.properties⟩
  · refine ⟨_, hc, ht, fun j e he => ?_, fun j e he => ?_⟩
    · rw [SortedMap.get?_erase] at he
      split_ifs at he
      exact h.schemas j e he
    · obtain ⟨e', he', hv⟩ := value_of_releaseAll he
      exact hv ▸ h.properties j e' he'
  · have hA : A k t.schema := h.schemas k _ hg
    refine ⟨_, hc, ht, fun j e he => ?_, h.properties⟩
    rw [SortedMap.get?_insert] at he
    split_ifs at he with hj
    · obtain rfl := Option.some.inj he
      exact hj ▸ hA
    · exact h.schemas j e he

theorem account_backed : Account (Backed A B) where
  frame hs hp hc h := ⟨account_tallied.frame hs hp hc h.tallied, by rw [hs]; exact h.schemas,
    by rw [hp]; exact h.properties⟩
  perm hp h := ⟨account_tallied.perm hp h.tallied, h.schemas, h.properties⟩
  release := Backed.release

/-- A property that sharing does not change: the built-in one of its name, or the only one that can
be told of its identity. -/
def Stable (B : Identity → Property → Prop) (p : Property) : Prop :=
  (p.isPinned ∧ Builtin.property? p.name = some p) ∨
    p.isPinned = false ∧ ∃ k, p.surrogate.identity? = some k ∧ B k p ∧ ∀ q, B k q → q = p

theorem Stable.share {p : Property} (hp : Stable B p) {s : Sharing}
    (hs : ∀ k e, s.properties.get? k = some e → B k e.value) :
    ∃ s', (Cache.share p).run s = .ok (p, s') ∧
      ∀ k e, s'.properties.get? k = some e → B k e.value := by
  obtain ⟨q, s', hrun⟩ := exists_share s (p := p) (by
    rcases hp with ⟨hpin, -⟩ | ⟨-, k, hk, -⟩
    · exact .inl hpin
    · exact .inr ⟨k, hk⟩)
  rcases hp with ⟨hpin, hbuiltin⟩ | ⟨hpin, k, hk, hB, honly⟩
  · obtain ⟨hq, -, rfl⟩ | ⟨k, hcounts, -⟩ := share_eq_ok hrun
    · obtain rfl : p = q := Option.some.inj (hbuiltin.symm.trans hq)
      exact ⟨s', hrun, hs⟩
    · simp [Property.countsAs, hpin] at hcounts
  · obtain ⟨-, hpin', -⟩ | ⟨j, hcounts, hq, hcase⟩ := share_eq_ok hrun
    · simp [hpin] at hpin'
    · obtain rfl : j = k := Option.some.inj ((Property.countsAs_iff.1 hcounts).2.symm.trans hk)
      obtain rfl : q = p := by
        cases hg : s.properties.get? j with
        | none => rw [hq, hg, Option.getD_none]
        | some e => rw [hq, hg, Option.getD_some, honly _ (hs j e hg)]
      obtain ⟨-, rfl⟩ | ⟨-, rfl⟩ := hcase
      · exact ⟨s', hrun, hs⟩
      · refine ⟨_, hrun, fun i e he => ?_⟩
        rw [SortedMap.get?_insert] at he
        split_ifs at he with hi
        · rw [hi, ← Option.some.inj he]
          exact hB
        · exact hs i e he

theorem get?_of_acquireSchema {schema : Schema} {shared : SharedSchema}
    (ha : c.acquireSchema k schema = .ok (shared, c')) : ∃ n, c'.schemas.get? k = some ⟨n, shared⟩ := by
  obtain ⟨n, -, rfl⟩ | ⟨-, copy, sharing, -, -, rfl⟩ := acquireSchema_eq_ok ha
  · exact ⟨n + 1, SortedMap.get?_insert_self _ _ _⟩
  · exact ⟨1, SortedMap.get?_insert_self _ _ _⟩

/-- The properties that are shared stay told of their identities while others are shared that are. -/
theorem told_of_mapProperties {schema copy : Schema} {s s' : Sharing}
    (hfrozen : schema.definitions.Frozen)
    (hschema : ∀ p ∈ schema.properties, ∀ k, p.countsAs k → B k p)
    (hs : ∀ k e, s.properties.get? k = some e → B k e.value)
    (h : (schema.mapProperties share).run s = .ok (copy, s')) :
    ∀ k e, s'.properties.get? k = some e → B k e.value := by
  obtain ⟨d, hd, -⟩ := Schema.mapProperties_eq_ok h
  have hstep : ∀ p ∈ schema.properties, ∀ q s s',
      (∀ k e, s.properties.get? k = some e → B k e.value) → (share p).run s = .ok (q, s') →
        True ∧ ∀ k e, s'.properties.get? k = some e → B k e.value := by
    intro p hp q s s' hs hrun
    refine ⟨trivial, ?_⟩
    obtain ⟨-, -, rfl⟩ | ⟨k, hk, hq, ⟨-, rfl⟩ | ⟨-, rfl⟩⟩ := share_eq_ok hrun
    · exact hs
    · exact hs
    · have hB : B k q := by
        rw [hq]
        cases hg : s.properties.get? k with
        | none => exact hschema p hp k hk
        | some e => exact hs k e hg
      intro i e he
      rw [SortedMap.get?_insert] at he
      split_ifs at he with hi
      · rw [← Option.some.inj he, hi]
        exact hB
      · exact hs i e he
  exact (forall_mem_of_mapM_eq_ok hstep hs (hfrozen.mapProperties hd).2).2

/-- A schema that has been taken up is shared already, or its copy and the properties that it brings
along are told of their identities. -/
theorem Backed.cons {schema : Schema} {shared : SharedSchema} (h : Backed A B c users)
    (hk : schema.surrogate.identity? = some k) (ha : c.acquireSchema k schema = .ok (shared, c'))
    (hnew : c.schemas.get? k = none → ∀ copy sharing,
      (schema.mapProperties share).run { properties := c.properties } = .ok (copy, sharing) →
        A k copy ∧ ∀ j e, sharing.properties.get? j = some e → B j e.value) :
    Backed A B c' (shared :: users) := by
  have htallied := h.tallied.acquire hk ha
  obtain ⟨n, hg, rfl⟩ | ⟨hnone, copy, sharing, hcopy, rfl, rfl⟩ := acquireSchema_eq_ok ha
  · have hA : A k shared.schema := h.schemas k _ hg
    refine ⟨htallied, fun j e he => ?_, h.properties⟩
    rw [SortedMap.get?_insert] at he
    split_ifs at he with hj
    · rw [← Option.some.inj he, hj]
      exact hA
    · exact h.schemas j e he
  · obtain ⟨hA, hB⟩ := hnew hnone copy sharing hcopy
    refine ⟨htallied, fun j e he => ?_, hB⟩
    rw [SortedMap.get?_insert] at he
    split_ifs at he with hj
    · rw [← Option.some.inj he, hj]
      exact hA
    · exact h.schemas j e he

/-- A schema that is what is told of it can be taken up, and the shared copy is what is told of it. -/
theorem Backed.acquire {schema : Schema} (h : Backed A B c users)
    (hk : schema.surrogate.identity? = some k) (hA : A k schema)
    (hfrozen : schema.definitions.Frozen) (hstable : ∀ p ∈ schema.properties, Stable B p) :
    ∃ shared c', c.acquireSchema k schema = .ok (shared, c') ∧ A k shared.schema ∧
      Backed A B c' (shared :: users) := by
  cases hg : c.schemas.get? k with
  | some entry =>
    have ha : c.acquireSchema k schema = .ok (entry.value,
        { c with schemas := c.schemas.insert k { entry with uses := entry.uses + 1 } }) := by
      simp only [acquireSchema, hg]
    exact ⟨_, _, ha, h.schemas k entry hg, h.cons hk ha fun hnone => by cases hg.symm.trans hnone⟩
  | none =>
    obtain ⟨sharing, hrun, hsharing⟩ := hfrozen.mapProperties_eq_self (f := Cache.share)
      (I := fun s => ∀ k e, s.properties.get? k = some e → B k e.value)
      (s := { properties := c.properties }) (fun p hp s hs => (hstable p hp).share hs) h.properties
    have hcopy : (schema.mapProperties share).run { properties := c.properties } =
        .ok (schema, sharing) := run_bind_eq_ok_iff.2 ⟨_, _, hrun, rfl⟩
    have ha : c.acquireSchema k schema = .ok ({ schema, origin := some (.cached c.copies) },
        { c with
          schemas := c.schemas.insert k ⟨1, { schema, origin := some (.cached c.copies) }⟩
          properties := sharing.properties
          copies := c.copies + 1 }) := by
      simp only [acquireSchema, hg]
      exact bind_eq_ok_iff.2 ⟨_, hcopy, rfl⟩
    refine ⟨_, _, ha, hA, h.cons hk ha fun _ copy sharing' hcopy' => ?_⟩
    obtain ⟨rfl, rfl⟩ := Prod.mk.inj (Except.ok.inj (hcopy.symm.trans hcopy'))
    exact ⟨hA, hsharing⟩

end ChronicleMeta.Cache
