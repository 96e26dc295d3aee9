import ChronicleMeta.Proofs.Store.Properties

/-!
What every operation of a store keeps: the objects are under their names with ids of their own, and
the properties that the schemas refer to are built-in ones or the stored ones.
-/

namespace ChronicleMeta.Store

/-- Whether the property is a built-in one or a stored one. -/
def Knows (s : Store) (p : Property) : Prop :=
  p ∈ Builtin.properties ∨ s.properties.get? p.name = some p

/-- A store whose objects can be told apart, and whose schemas refer to its own properties. -/
structure Sound (s : Store) : Prop where
  foreign : s.database.isBuiltin = false
  schemas : Registered s.database .schema s.lastId Blueprint.name Blueprint.surrogate s.schemas
  properties :
    Registered s.database .property s.lastId Property.name Property.surrogate s.properties
  chronicles : Registered s.database .chronicle s.lastId StoredChronicle.fullName
    StoredChronicle.surrogate s.chronicles
  knows : ∀ n b, s.schemas.get? n = some b → ∀ p ∈ b.properties, s.Knows p

theorem sound_empty {database : DatabaseId} (h : database.isBuiltin = false) :
    Sound { database } where
  foreign := h
  schemas := registered_empty
  properties := registered_empty
  chronicles := registered_empty
  knows := by simp

variable {s : Store}

theorem Sound.refers (h : s.Sound) : s.Refers (· ∈ Builtin.properties) := ⟨h.properties, h.knows⟩

/-- The store has the same objects, and perhaps others. -/
structure Grows (s s' : Store) : Prop where
  schemas : ∀ n b, s.schemas.get? n = some b → s'.schemas.get? n = some b
  properties : ∀ n p, s.properties.get? n = some p → s'.properties.get? n = some p
  chronicles : ∀ n c, s.chronicles.get? n = some c → s'.chronicles.get? n = some c

theorem grows_refl (s : Store) : s.Grows s := ⟨fun _ _ h => h, fun _ _ h => h, fun _ _ h => h⟩

theorem grows_createSchema (s : Store) (b : Blueprint) : s.Grows (s.createSchema b).state := by
  obtain ⟨e, hs⟩ | ⟨hfree, -, hs⟩ := createSchema_cases s b <;> rw [hs]
  · exact grows_refl s
  · exact ⟨fun _ _ => SortedMap.get?_insert_of_free _ hfree, fun _ _ hp => hp, fun _ _ hc => hc⟩

theorem grows_createValueType (s : Store) (t : ValueType) : s.Grows (s.createValueType t).state := by
  obtain ⟨e, hs⟩ | ⟨-, -, hs⟩ := createValueType_cases s t <;> rw [hs]
  · exact grows_refl s
  · exact ⟨fun _ _ hb => hb, fun _ _ hp => hp, fun _ _ hc => hc⟩

theorem grows_createProperty (s : Store) (p : Property) : s.Grows (s.createProperty p).state := by
  obtain ⟨e, hs⟩ | ⟨hfree, -, hs⟩ := createProperty_cases s p <;> rw [hs]
  · exact grows_refl s
  · exact ⟨fun _ _ hb => hb, fun _ _ => SortedMap.get?_insert_of_free _ hfree, fun _ _ hc => hc⟩

theorem grows_createChronicle (s : Store) (c : StoredChronicle) :
    s.Grows (s.createChronicle c).state := by
  obtain ⟨e, hs⟩ | ⟨hfree, -, hs⟩ := createChronicle_cases s c <;> rw [hs]
  · exact grows_refl s
  · exact ⟨fun _ _ hb => hb, fun _ _ hp => hp, fun _ _ => SortedMap.get?_insert_of_free _ hfree⟩

theorem Sound.createSchema (h : s.Sound) {b : Blueprint} (hb : ∀ p ∈ b.properties, s.Knows p) :
    (s.createSchema b).state.Sound ∧ s.Grows (s.createSchema b).state := by
  refine ⟨?_, grows_createSchema s b⟩
  have hrefers := h.refers.createSchema hb
  obtain ⟨e, hs⟩ | ⟨-, hlt, hs⟩ := createSchema_cases s b
  · rw [hs]
    exact h
  · rw [hs] at hrefers ⊢
    refine ⟨h.foreign, ?_, hrefers.listed, h.chronicles.mono (Nat.le_of_lt hlt), hrefers.stored⟩
    exact h.schemas.insert_new
      (a := Blueprint.close { b with surrogate := .committed s.database .schema s.nextId }) rfl hlt

theorem Sound.createValueType (h : s.Sound) (t : ValueType) :
    (s.createValueType t).state.Sound ∧ s.Grows (s.createValueType t).state := by
  refine ⟨?_, grows_createValueType s t⟩
  obtain ⟨e, hs⟩ | ⟨-, hlt, hs⟩ := createValueType_cases s t
  · rw [hs]
    exact h
  · rw [hs]
    have hle := Nat.le_of_lt hlt
    exact ⟨h.foreign, h.schemas.mono hle, h.properties.mono hle, h.chronicles.mono hle, h.knows⟩

theorem Sound.createProperty (h : s.Sound) (p : Property) :
    (s.createProperty p).state.Sound ∧ s.Grows (s.createProperty p).state := by
  refine ⟨?_, grows_createProperty s p⟩
  have hrefers := h.refers.createProperty p
  obtain ⟨e, hs⟩ | ⟨-, hlt, hs⟩ := createProperty_cases s p
  · rw [hs]
    exact h
  · rw [hs] at hrefers ⊢
    exact ⟨h.foreign, h.schemas.mono (Nat.le_of_lt hlt), hrefers.listed,
      h.chronicles.mono (Nat.le_of_lt hlt), hrefers.stored⟩

theorem Sound.createChronicle (h : s.Sound) (c : StoredChronicle) :
    (s.createChronicle c).state.Sound ∧ s.Grows (s.createChronicle c).state := by
  refine ⟨?_, grows_createChronicle s c⟩
  have hrefers := h.refers.createChronicle c
  obtain ⟨e, hs⟩ | ⟨-, hlt, hs⟩ := createChronicle_cases s c
  · rw [hs]
    exact h
  · rw [hs] at hrefers ⊢
    refine ⟨h.foreign, h.schemas.mono (Nat.le_of_lt hlt), hrefers.listed, ?_, hrefers.stored⟩
    exact h.chronicles.insert_new (a := { c with surrogate := _ }) rfl hlt

theorem Sound.loadSchema_eq_some_iff (h : s.Sound) {x : Surrogate} {b : Blueprint} :
    s.loadSchema x = some b ↔ s.schemas.get? b.name = some b ∧ b.surrogate.agrees x :=
  h.schemas.findValue?_eq_some_iff

theorem Sound.updateSchema (h : s.Sound) {b : Blueprint} (hb : ∀ p ∈ b.properties, s.Knows p) :
    (s.updateSchema b).state.Sound := by
  have hrefers := h.refers.updateSchema hb
  obtain ⟨e, hs⟩ | ⟨old, hold, -, hs⟩ := updateSchema_cases s b
  · rw [hs]
    exact h
  · rw [hs] at hrefers ⊢
    obtain ⟨hget, hagrees⟩ := h.loadSchema_eq_some_iff.1 hold
    refine ⟨h.foreign, ?_, h.properties, h.chronicles, hrefers.stored⟩
    exact h.schemas.replace (a := b.close) hget (Surrogate.agrees_iff.1 hagrees).1.symm

theorem Sound.deleteSchema (h : s.Sound) (x : Surrogate) : (s.deleteSchema x).state.Sound := by
  have hrefers := h.refers.deleteSchema x
  unfold Store.deleteSchema at hrefers ⊢
  cases hx : s.loadSchema x with
  | none => exact h
  | some b =>
    rw [hx] at hrefers
    exact ⟨h.foreign, h.schemas.erase b.name, h.properties, h.chronicles, hrefers.stored⟩

theorem Sound.deleteChronicle (h : s.Sound) (x : Surrogate) : (s.deleteChronicle x).state.Sound := by
  unfold Store.deleteChronicle
  cases s.chronicles.findValue? (·.surrogate.agrees x) with
  | none => exact h
  | some c => exact ⟨h.foreign, h.schemas, h.properties, h.chronicles.erase c.fullName, h.knows⟩

/-- A property that no schema refers to can be deleted. -/
theorem Sound.deleteProperty (h : s.Sound) {x : Surrogate}
    (hx : ∀ n b, s.schemas.get? n = some b → ∀ p ∈ b.properties, p.surrogate.agrees x = false) :
    (s.deleteProperty x).state.Sound := by
  have hrefers := h.refers.deleteProperty hx
  unfold Store.deleteProperty at hrefers ⊢
  cases hp : s.findProperty? x with
  | none => exact h
  | some p =>
    rw [hp] at hrefers
    exact ⟨h.foreign, h.schemas, hrefers.listed, h.chronicles, hrefers.stored⟩

theorem Sound.updateProperty (h : s.Sound) (p : Property) : (s.updateProperty p).state.Sound := by
  have hrefers := h.refers.updateProperty p
  obtain ⟨e, hs⟩ | ⟨old, schemas, -, -, -, hschemas, hs⟩ := updateProperty_cases s p
  · rw [hs]
    exact h
  · rw [hs] at hrefers ⊢
    refine ⟨h.foreign, ?_, hrefers.listed, h.chronicles, hrefers.stored⟩
    refine h.schemas.of_forall fun n b' hb' => ?_
    obtain ⟨b, hb, hname, hsurrogate, -⟩ := rewriteSchemas_eq_ok hschemas hb'
    exact ⟨b, hb, hname, hsurrogate⟩

end ChronicleMeta.Store
