import ChronicleMeta.Proofs.Cache.Backing

/-!
What is true of every property that a cache can provide, on its own or in a schema: what is true of the
built-in ones and of those of the schemas that are taken up.
-/

namespace ChronicleMeta.Cache

/-- The schema is frozen, and all its properties have `P`. -/
structure Provided (P : Property → Prop) (s : Schema) : Prop where
  frozen : s.definitions.Frozen
  properties : ∀ p ∈ s.properties, P p

/-- All shared schemas and properties have properties with `P` only. -/
structure Provides (P : Property → Prop) (c : Cache) : Prop where
  unique : c.chronicles.Unique
  backed : Backed (fun _ => Provided P) (fun _ => P) c c.users

variable {P : Property → Prop} {c c' : Cache} {users : List SharedSchema} {k : Identity}

theorem provides_empty (capacity : Nat) (h : 0 < capacity) : (empty capacity h).Provides P :=
  ⟨Recency.unique_nil, backed_nil rfl rfl⟩

/-- A property is shared as the built-in one of its name, as the cached one or as it is. -/
theorem holds_of_share (hbuiltin : ∀ p ∈ Builtin.properties, P p) {p q : Property} {s s' : Sharing}
    (hp : P p) (hs : ∀ k e, s.properties.get? k = some e → P e.value)
    (h : (share p).run s = .ok (q, s')) :
    P q ∧ ∀ k e, s'.properties.get? k = some e → P e.value := by
  obtain ⟨hq, -, rfl⟩ | ⟨k, -, hq, hcase⟩ := share_eq_ok h
  · exact ⟨hbuiltin q (List.mem_of_find?_eq_some hq), hs⟩
  · have hPq : P q := by
      rw [hq]
      cases hg : s.properties.get? k with
      | none => exact hp
      | some e => exact hs k e hg
    obtain ⟨-, rfl⟩ | ⟨-, rfl⟩ := hcase
    · exact ⟨hPq, hs⟩
    · refine ⟨hPq, fun i e he => ?_⟩
      rw [SortedMap.get?_insert] at he
      split_ifs at he
      · obtain rfl := Option.some.inj he
        exact hPq
      · exact hs i e he

theorem provided_of_mapProperties (hbuiltin : ∀ p ∈ Builtin.properties, P p) {schema copy : Schema}
    {s s' : Sharing} (hschema : Provided P schema)
    (hs : ∀ k e, s.properties.get? k = some e → P e.value)
    (h : (schema.mapProperties share).run s = .ok (copy, s')) :
    Provided P copy ∧ ∀ k e, s'.properties.get? k = some e → P e.value := by
  obtain ⟨d, s₁, hd, h⟩ := run_bind_eq_ok_iff.1 h
  obtain ⟨rfl, rfl⟩ := run_pure_eq_ok_iff.1 h
  obtain ⟨hfrozen, hproperties⟩ := hschema.frozen.mapProperties hd
  obtain ⟨hall, hs₁⟩ := forall_mem_of_mapM_eq_ok (fun p hp q s s' hs hq =>
    holds_of_share hbuiltin (hschema.properties p hp) hs hq) hs hproperties
  exact ⟨⟨hfrozen, hall⟩, hs₁⟩

theorem Backed.acquire_provided (hbuiltin : ∀ p ∈ Builtin.properties, P p) {schema : Schema}
    {shared : SharedSchema} (h : Backed (fun _ => Provided P) (fun _ => P) c users)
    (hschema : Provided P schema) (hk : schema.surrogate.identity? = some k)
    (ha : c.acquireSchema k schema = .ok (shared, c')) :
    Backed (fun _ => Provided P) (fun _ => P) c' (shared :: users) :=
  h.cons hk ha fun _ _ _ hcopy => provided_of_mapProperties hbuiltin hschema h.properties hcopy

/-- No request makes a cache provide other properties, if it stores only chronicles whose schemas have
none. -/
theorem Provides.serve (h : c.Provides P) (hbuiltin : ∀ p ∈ Builtin.properties, P p) {r : Request}
    (hr : ∀ chronicle, r = .store chronicle → Provided P chronicle.schema.schema) :
    (c.serve r).state.Provides P := by
  obtain ⟨hunique, hbacked, -⟩ := account_backed.serve h.unique h.backed r
    (fun _ => backed_nil rfl rfl)
    fun chronicle hstore k shared c₁ hk ha =>
      h.backed.acquire_provided hbuiltin (hr chronicle hstore) hk ha
  exact ⟨hunique, hbacked⟩

theorem Provides.schema? (h : c.Provides P) {x : Surrogate} {shared : SharedSchema}
    (hx : c.schema? x = some shared) : Provided P shared.schema := by
  obtain ⟨e, he, rfl⟩ := Option.map_eq_some_iff.1 hx
  obtain ⟨k, -, hk⟩ := Option.bind_eq_some_iff.1 he
  exact h.backed.schemas k e hk

theorem Provides.property? (h : c.Provides P) (hbuiltin : ∀ p ∈ Builtin.properties, P p)
    {name : String} {p : Property} (hp : c.property? name = some p) : P p := by
  unfold Cache.property? at hp
  split at hp
  next q hq => exact Option.some.inj hp ▸ hbuiltin q (List.mem_of_find?_eq_some hq)
  next =>
    obtain ⟨e, he, rfl⟩ := Option.map_eq_some_iff.1 hp
    obtain ⟨k, hk⟩ := SortedMap.mem_values_iff.1 (List.mem_of_find?_eq_some he)
    exact h.backed.properties k e hk

end ChronicleMeta.Cache
