import ChronicleMeta.Proofs.Chain
import ChronicleMeta.Proofs.Store.Effect

/-!
The properties that stored schemas refer to. Each is a stored one, and as it is stored, unless it is
exempt: a property that is replaced is replaced in the schemas too, and one is deleted only while no
schema refers to it. That new schemas refer to stored properties has to be asked.
-/

namespace ChronicleMeta.Store

/-- All properties that the schemas refer to have `P`. -/
def Mentions (P : Property → Prop) (s : Store) : Prop :=
  ∀ n b, s.schemas.get? n = some b → ∀ p ∈ b.properties, P p

/-- The properties are under their names with ids of their own, and the schemas refer to no others but
those that are exempt. -/
structure Refers (E : Property → Prop) (s : Store) : Prop where
  listed : Registered s.database .property s.lastId Property.name Property.surrogate s.properties
  stored : s.Mentions fun p => E p ∨ s.properties.get? p.name = some p

variable {E : Property → Prop} {s s' : Store} {b : Blueprint}

theorem refers_empty (database : DatabaseId) : Refers E { database } where
  listed := registered_empty
  stored n b hb := by simp at hb

/-- The schemas are all that a resolved schema has its properties from. -/
theorem Mentions.resolve {P : Property → Prop} (h : s.Mentions P) {x : Surrogate}
    (hb : s.loadSchema x = some b) {config : ResolutionConfig} {schema : Schema}
    (hresolve : b.resolve s.source config = .ok schema) : ∀ p ∈ schema.properties, P p := by
  intro p hp
  obtain ⟨b', rfl | ⟨n, hb'⟩, hp⟩ := (Blueprint.resolve_eq_ok hresolve).2.2 p hp
  · obtain ⟨n, hn⟩ := SortedMap.mem_values_iff.1 (List.mem_of_find?_eq_some hb)
    exact h n b' hn p hp
  · exact h n b' (Except.ok.inj hb') p hp

theorem properties_close (b : Blueprint) : b.close.properties = b.properties :=
  Definitions.properties_consolidate b.definitions

/-- Other schemas, each of which is one there was or refers to stored properties, and a greater id. -/
theorem Refers.of_schemas (h : s.Refers E) (hdatabase : s'.database = s.database)
    (hproperties : s'.properties = s.properties) (hle : s.lastId.toNat ≤ s'.lastId.toNat)
    (hschemas : ∀ n b, s'.schemas.get? n = some b → s.schemas.get? n = some b ∨
      ∀ p ∈ b.properties, E p ∨ s.properties.get? p.name = some p) : s'.Refers E where
  listed := by
    rw [hdatabase, hproperties]
    exact h.listed.mono hle
  stored n b hb := by
    rw [hproperties]
    exact (hschemas n b hb).elim (h.stored n b) id

theorem Refers.createSchema (h : s.Refers E)
    (hb : ∀ p ∈ b.properties, E p ∨ s.properties.get? p.name = some p) :
    (s.createSchema b).state.Refers E := by
  obtain ⟨e, hs⟩ | ⟨-, hlt, hs⟩ := createSchema_cases s b
  · rw [hs]
    exact h
  · rw [hs]
    refine h.of_schemas rfl rfl (Nat.le_of_lt hlt) fun n b' hb' => ?_
    simp only [Outcome.ok, SortedMap.get?_insert] at hb'
    split_ifs at hb'
    · obtain rfl := Option.some.inj hb'
      rw [properties_close]
      exact .inr hb
    · exact .inl hb'

theorem Refers.updateSchema (h : s.Refers E)
    (hb : ∀ p ∈ b.properties, E p ∨ s.properties.get? p.name = some p) :
    (s.updateSchema b).state.Refers E := by
  obtain ⟨e, hs⟩ | ⟨old, -, -, hs⟩ := updateSchema_cases s b
  · rw [hs]
    exact h
  · rw [hs]
    refine h.of_schemas rfl rfl (Nat.le_refl _) fun n b' hb' => ?_
    simp only [Outcome.ok, SortedMap.get?_insert, SortedMap.get?_erase] at hb'
    split_ifs at hb'
    · obtain rfl := Option.some.inj hb'
      rw [properties_close]
      exact .inr hb
    · exact .inl hb'

theorem Refers.deleteSchema (h : s.Refers E) (x : Surrogate) : (s.deleteSchema x).state.Refers E := by
  unfold Store.deleteSchema
  cases s.loadSchema x with
  | none => exact h
  | some b =>
    refine h.of_schemas rfl rfl (Nat.le_refl _) fun n b' hb' => .inl ?_
    simp only [Outcome.ofExcept, Outcome.ok, pure, Except.pure, SortedMap.get?_erase] at hb'
    split_ifs at hb'
    exact hb'

theorem Refers.createChronicle (h : s.Refers E) (c : StoredChronicle) :
    (s.createChronicle c).state.Refers E := by
  obtain ⟨e, hs⟩ | ⟨-, hlt, hs⟩ := createChronicle_cases s c
  · rw [hs]
    exact h
  · rw [hs]
    exact h.of_schemas rfl rfl (Nat.le_of_lt hlt) fun _ _ => .inl

theorem Refers.deleteChronicle (h : s.Refers E) (x : Surrogate) :
    (s.deleteChronicle x).state.Refers E := by
  unfold Store.deleteChronicle
  cases s.chronicles.findValue? (·.surrogate.agrees x) with
  | none => exact h
  | some c => exact h.of_schemas rfl rfl (Nat.le_refl _) fun _ _ => .inl

theorem Refers.findProperty?_eq_some_iff (h : s.Refers E) {x : Surrogate} {p : Property} :
    s.findProperty? x = some p ↔ s.properties.get? p.name = some p ∧ p.surrogate.agrees x :=
  h.listed.findValue?_eq_some_iff

theorem Refers.findProperty?_surrogate_iff (h : s.Refers E) {p : Property} :
    s.findProperty? p.surrogate = some p ↔ s.properties.get? p.name = some p := by
  refine h.findProperty?_eq_some_iff.trans (and_iff_left_of_imp fun hp => ?_)
  obtain ⟨id, hid, -⟩ := h.listed.owned p.name p hp
  exact Surrogate.agrees_iff.2 ⟨rfl, _, by rw [hid]; rfl⟩

theorem Refers.createProperty (h : s.Refers E) (p : Property) :
    (s.createProperty p).state.Refers E := by
  obtain ⟨e, hs⟩ | ⟨hfree, hlt, hs⟩ := createProperty_cases s p
  · rw [hs]
    exact h
  · rw [hs]
    refine ⟨h.listed.insert_new (a := { p with surrogate := _ }) rfl hlt, fun n b hb q hq => ?_⟩
    exact (h.stored n b hb q hq).imp_right (SortedMap.get?_insert_of_free _ hfree)

/-- A property that no schema refers to can be deleted. -/
theorem Refers.deleteProperty (h : s.Refers E) {x : Surrogate}
    (hx : ∀ n b, s.schemas.get? n = some b → ∀ p ∈ b.properties, p.surrogate.agrees x = false) :
    (s.deleteProperty x).state.Refers E := by
  unfold Store.deleteProperty
  cases hp : s.findProperty? x with
  | none => exact h
  | some p =>
    obtain ⟨hget, hagrees⟩ := h.findProperty?_eq_some_iff.1 hp
    refine ⟨h.listed.erase p.name, fun n b hb q hq => ?_⟩
    refine (h.stored n b hb q hq).imp_right fun hstored => ?_
    have hne : q.name ≠ p.name := by
      intro heq
      rw [heq, hget] at hstored
      obtain rfl := Option.some.inj hstored
      rw [hx n b hb p hq] at hagrees
      cases hagrees
    simp only [Outcome.ofExcept, Outcome.ok, pure, Except.pure, SortedMap.get?_erase]
    rw [if_neg hne, hstored]

theorem Refers.updateProperty (h : s.Refers E) (p : Property) :
    (s.updateProperty p).state.Refers E := by
  obtain ⟨e, hs⟩ | ⟨old, schemas, -, hold, hfree, hschemas, hs⟩ := updateProperty_cases s p
  · rw [hs]
    exact h
  · rw [hs]
    obtain ⟨hget, hagrees⟩ := h.findProperty?_eq_some_iff.1 hold
    have hsurrogate := (Surrogate.agrees_iff.1 hagrees).1
    refine ⟨h.listed.replace hget hsurrogate.symm, fun n b' hb' q hq => ?_⟩
    obtain ⟨b, hb, -, -, hproperties⟩ := rewriteSchemas_eq_ok hschemas hb'
    obtain ⟨r, hr, rfl⟩ := hproperties q hq
    split_ifs with hrp
    · exact .inr (SortedMap.get?_insert_self _ _ _)
    · refine (h.stored n b hb r hr).imp_right fun hstored => ?_
      have hold : r.name ≠ old.name := by
        intro heq
        rw [heq, hget] at hstored
        exact hrp (Option.some.inj hstored ▸ hagrees)
      have hnew : r.name ≠ p.name := by
        intro heq
        by_cases hname : old.name = p.name
        · exact hold (heq.trans hname.symm)
        · rw [heq, hfree hname] at hstored
          cases hstored
      simp only [Outcome.ok]
      rw [SortedMap.get?_insert_of_ne _ hnew, SortedMap.get?_erase, if_neg hold, hstored]

end ChronicleMeta.Store
