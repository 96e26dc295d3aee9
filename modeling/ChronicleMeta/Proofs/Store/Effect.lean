import Mathlib.Algebra.Group.Nat.Defs
import ChronicleMeta.Proofs.PropertyMap
import ChronicleMeta.Proofs.Store.Request
import ChronicleMeta.Proofs.Store.Table

/-!
All that the operations of a store can do. They fail and change nothing, or they store a new object under
a free name with the next id, or they put another object in the place of the one with its surrogate.
-/

namespace ChronicleMeta.Store

variable {s : Store}

private theorem checkFree_eq_ok {α : Type} {m : SortedMap String α} {kind : ObjectKind} {name : String}
    (h : checkFree m kind name = .ok ()) : m.get? name = none := by
  unfold checkFree at h
  split_ifs at h with hc
  exact SortedMap.contains_eq_false_iff.1 (Bool.eq_false_iff.2 hc)

private theorem checkOwned_eq_ok {x : Surrogate} {kind : ObjectKind}
    (h : s.checkOwned x kind = .ok ()) : x.kind = kind ∧ x.database = s.database := by
  unfold checkOwned at h
  split_ifs at h with hc
  exact hc

theorem toNat_nextId (h : s.lastId.toNat + 1 < 2 ^ 64) : s.nextId.toNat = s.lastId.toNat + 1 := by
  have hadd : s.nextId.toNat = (s.lastId.toNat + 1) % 2 ^ 64 := UInt64.toNat_add _ _
  omega

/-- A new object gets the next id, which has not been assigned before. -/
private theorem surrogate_new {x y : Surrogate} {kind : ObjectKind}
    (hnew : s.checkNew x kind = .ok ()) (hup : x.upgrade s.nextId = .ok y) :
    y = .committed s.database kind s.nextId ∧ s.lastId.toNat < s.nextId.toNat := by
  obtain ⟨-, hid, rfl⟩ := Surrogate.upgrade_eq_ok hup
  obtain ⟨rfl, hdatabase⟩ : x.kind = kind ∧ x.database = s.database := by
    unfold checkNew at hnew
    split_ifs at hnew
    · cases hnew
    · exact checkOwned_eq_ok hnew
  refine ⟨by rw [Surrogate.committed, hdatabase], ?_⟩
  have hne : s.nextId.toNat ≠ 0 := fun h => hid (UInt64.toNat_inj.1 h)
  have hlt := s.lastId.toNat_lt
  have hadd : s.nextId.toNat = (s.lastId.toNat + 1) % 2 ^ 64 := UInt64.toNat_add _ _
  omega

/-- All that storing a new object of a free name can do. The object is made from its surrogate, and
the store from the object. -/
private theorem create_cases {α β : Type} (s : Store) {x : Surrogate} {kind : ObjectKind}
    {m : SortedMap String α} {name : String} {object : Surrogate → β} {upgraded : Except Error β}
    (hup : upgraded = (x.upgrade s.nextId).map object) (insert : β → Store) :
    let r : Edited Store UInt64 := .ofExcept s do
      s.checkNew x kind
      checkFree m kind name
      let b ← upgraded
      return (s.nextId, insert b)
    let stored := object (.committed s.database kind s.nextId)
    (∃ e, r = .fail s e) ∨
      upgraded = .ok stored ∧ m.get? name = none ∧ s.lastId.toNat < s.nextId.toNat ∧
        r = .ok (insert stored) s.nextId := by
  intro r stored
  rcases Outcome.ofExcept_cases s _ with h | ⟨id, s', hrun, h⟩
  · exact .inl h
  · obtain ⟨_, hnew, hrun⟩ := bind_eq_ok_iff.1 hrun
    obtain ⟨_, hfree, hrun⟩ := bind_eq_ok_iff.1 hrun
    obtain ⟨b, hb, hrun⟩ := bind_eq_ok_iff.1 hrun
    obtain ⟨y, hy, rfl⟩ := map_eq_ok_iff.1 (hup.symm.trans hb)
    obtain ⟨rfl, hlt⟩ := surrogate_new hnew hy
    obtain ⟨rfl, rfl⟩ := Prod.mk.inj (pure_eq_ok_iff.1 hrun)
    exact .inr ⟨hb, checkFree_eq_ok hfree, hlt, h⟩

theorem createSchema_cases (s : Store) (b : Blueprint) :
    (∃ e, s.createSchema b = .fail s e) ∨
      s.schemas.get? b.name = none ∧ s.lastId.toNat < s.nextId.toNat ∧
        s.createSchema b = .ok { s with
          lastId := s.nextId
          schemas := s.schemas.insert b.name
            (Blueprint.close { b with surrogate := .committed s.database .schema s.nextId }) }
          s.nextId :=
  (create_cases s rfl _).imp_right And.right

theorem upgrade_eq_ok {b : Blueprint} (hpending : b.surrogate = .pending s.database .schema)
    (hroom : s.lastId.toNat + 1 < 2 ^ 64) :
    b.upgrade s.nextId = .ok { b with surrogate := .committed s.database .schema s.nextId } := by
  have hid : s.nextId ≠ 0 := by
    intro hzero
    have hnat := toNat_nextId hroom
    rw [hzero] at hnat
    cases hnat
  simp [Blueprint.upgrade, Surrogate.upgrade, hpending, Surrogate.pending, hid, Except.map,
    Surrogate.committed]

theorem createSchema_eq_ok {b : Blueprint} (hpending : b.surrogate = .pending s.database .schema)
    (hfree : s.schemas.get? b.name = none) (hroom : s.lastId.toNat + 1 < 2 ^ 64) :
    s.createSchema b = .ok { s with
      lastId := s.nextId
      schemas := s.schemas.insert b.name
        (Blueprint.close { b with surrogate := .committed s.database .schema s.nextId }) }
      s.nextId := by
  have hnew : s.checkNew b.surrogate .schema = .ok () := by
    simp [hpending, checkNew, checkOwned, Surrogate.pending, Surrogate.isPending]
  have hname : checkFree s.schemas .schema b.name = .ok () := by
    simp [checkFree, SortedMap.contains, hfree]
  rw [createSchema, hnew, ok_bind, hname, ok_bind, upgrade_eq_ok hpending hroom]
  rfl

/-- A new schema that is stored has got its id there, as it gets it in its session. -/
theorem createSchema_upgrade (s : Store) (b : Blueprint) :
    (∃ e, s.createSchema b = .fail s e) ∨
      ∃ stored s', b.upgrade s.nextId = .ok stored ∧ s.createSchema b = .ok s' s.nextId ∧
        s'.schemas = s.schemas.insert b.name stored.close :=
  (create_cases s rfl _).imp_right fun ⟨hup, _, _, hs⟩ => ⟨_, _, hup, hs, rfl⟩

theorem createValueType_cases (s : Store) (t : ValueType) :
    (∃ e, s.createValueType t = .fail s e) ∨
      s.valueTypes.get? t.name = none ∧ s.lastId.toNat < s.nextId.toNat ∧
        s.createValueType t = .ok { s with
          lastId := s.nextId
          valueTypes := s.valueTypes.insert t.name
            { t with surrogate := .committed s.database .valueType s.nextId } } s.nextId :=
  (create_cases s rfl _).imp_right And.right

/-- A new value type that is stored and given back is the one that was stored. -/
theorem map_insertValueType (s : Store) (t : ValueType) :
    (s.insertValueType t).map (·.surrogate.id?) = (s.createValueType t).map some := by
  have hcases : (∃ e, s.createValueType t = .fail s e) ∨ ∃ stored s',
      t.upgrade s.nextId = .ok stored ∧ stored.surrogate.id? = some s.nextId ∧
        s.createValueType t = .ok s' s.nextId :=
    (create_cases s rfl _).imp_right fun ⟨hup, _, _, hs⟩ => ⟨_, _, hup, rfl, hs⟩
  unfold insertValueType
  obtain ⟨e, hs⟩ | ⟨stored, s', hup, hid, hs⟩ := hcases
  · rw [hs]
    rfl
  · rw [hs]
    simp [Outcome.andThen, Outcome.ok, Outcome.map, Except.map, hup, hid]

theorem createProperty_cases (s : Store) (p : Property) :
    (∃ e, s.createProperty p = .fail s e) ∨
      s.properties.get? p.name = none ∧ s.lastId.toNat < s.nextId.toNat ∧
        s.createProperty p = .ok { s with
          lastId := s.nextId
          properties := s.properties.insert p.name
            { p with surrogate := .committed s.database .property s.nextId } } s.nextId :=
  (create_cases s rfl _).imp_right And.right

/-- A new property that is stored has got the id that the store gives. -/
theorem createProperty_upgrade (s : Store) (p : Property) :
    (∃ e, s.createProperty p = .fail s e) ∨
      ∃ stored s', p.upgrade s.nextId = .ok stored ∧ s.createProperty p = .ok s' s.nextId ∧
        s'.properties = s.properties.insert p.name stored :=
  (create_cases s rfl _).imp_right fun ⟨hup, _, _, hs⟩ => ⟨_, _, hup, hs, rfl⟩

/-- A new property that is stored and read back is the one that was stored. -/
theorem map_insertProperty (s : Store) (p : Property) :
    (s.insertProperty p).map (·.surrogate.id?) = (s.createProperty p).map some := by
  unfold insertProperty
  obtain ⟨e, hs⟩ | ⟨-, -, hs⟩ := createProperty_cases s p
  · rw [hs]
    rfl
  · rw [hs]
    simp [Outcome.andThen, Outcome.ok, Outcome.map, Except.map, Surrogate.committed]

theorem createChronicle_cases (s : Store) (c : StoredChronicle) :
    (∃ e, s.createChronicle c = .fail s e) ∨
      s.chronicles.get? c.fullName = none ∧ s.lastId.toNat < s.nextId.toNat ∧
        s.createChronicle c = .ok { s with
          lastId := s.nextId
          chronicles := s.chronicles.insert c.fullName
            { c with surrogate := .committed s.database .chronicle s.nextId } } s.nextId := by
  have hup : c.surrogate.upgrade s.nextId = (c.surrogate.upgrade s.nextId).map id := by
    cases c.surrogate.upgrade s.nextId <;> rfl
  exact (create_cases s hup _).imp_right And.right

theorem updateSchema_cases (s : Store) (b : Blueprint) :
    (∃ e, s.updateSchema b = .fail s e) ∨
      ∃ old, s.loadSchema b.surrogate = some old ∧
        (old.name ≠ b.name → s.schemas.get? b.name = none) ∧ s.updateSchema b =
          .ok { s with schemas := (s.schemas.erase old.name).insert b.name b.close } () := by
  unfold updateSchema
  rcases Outcome.ofExcept_cases s _ with h | ⟨u, s', hrun, h⟩
  · exact .inl h
  · rw [h]
    cases hold : s.loadSchema b.surrogate with
    | none =>
      rw [hold] at hrun
      cases hrun
    | some old =>
      simp only [hold] at hrun
      split_ifs at hrun with hname
      · obtain ⟨_, hfree, hrun⟩ := bind_eq_ok_iff.1 hrun
        refine .inr ⟨old, rfl, fun _ => checkFree_eq_ok hfree, ?_⟩
        rw [← (Prod.mk.inj (pure_eq_ok_iff.1 hrun)).2]
      · refine .inr ⟨old, rfl, fun hne => absurd hne hname, ?_⟩
        rw [← (Prod.mk.inj (pure_eq_ok_iff.1 hrun)).2]

theorem updateSchema_eq_ok {b old : Blueprint} (hold : s.loadSchema b.surrogate = some old)
    (hname : old.name = b.name) :
    s.updateSchema b = .ok { s with schemas := s.schemas.insert b.name b.close } () := by
  simp only [updateSchema, hold, hname, ne_eq, not_true, if_false, SortedMap.insert_erase]
  rfl

theorem mem_properties_of_replaceBy {p q : Property} {b b' : Blueprint}
    (h : (b.mapProperties (replaceBy p)).run () = .ok (b', ())) (hq : q ∈ b'.properties) :
    ∃ r ∈ b.properties, q = if r.surrogate.agrees p.surrogate then p else r := by
  obtain ⟨d, u, hd, h⟩ := run_bind_eq_ok_iff.1 h
  obtain ⟨rfl, -⟩ := run_pure_eq_ok_iff.1 h
  obtain ⟨r, hr, s₁, s₂, hstep⟩ := Definitions.mem_properties_of_mapProperties hd hq
  exact ⟨r, hr, (run_pure_eq_ok_iff.1 hstep).1.symm⟩

theorem mapProperties_eq_ok {p : Property} {b b' : Blueprint}
    (h : (b.mapProperties (replaceBy p)).run () = .ok (b', ())) :
    b' = { b with definitions := b'.definitions } := by
  obtain ⟨d, u, -, h⟩ := run_bind_eq_ok_iff.1 h
  obtain ⟨rfl, -⟩ := run_pure_eq_ok_iff.1 h
  rfl

/-- Schemas that are rewritten one after the other are put into the map, each under its name. -/
theorem get?_foldlM_rewrite {p : Property} {l : List (String × Blueprint)}
    {m m' : SortedMap String Blueprint}
    (h : l.foldlM (fun (m : SortedMap String Blueprint) e => do
      let (b, ()) ← (e.2.mapProperties (replaceBy p)).run ()
      return m.insert e.1 b) m = .ok m') :
    (∀ n b', m'.get? n = some b' → m.get? n = some b' ∨
      ∃ b, (n, b) ∈ l ∧ (b.mapProperties (replaceBy p)).run () = .ok (b', ())) ∧
    ∀ n, (m.contains n ∨ ∃ b, (n, b) ∈ l) → m'.contains n := by
  induction l generalizing m with
  | nil =>
    obtain rfl : m = m' := Except.ok.inj h
    exact ⟨fun n b' hget => .inl hget, fun n hn => by simpa using hn⟩
  | cons e l ih =>
    rw [List.foldlM_cons] at h
    obtain ⟨m₁, hstep, h⟩ := bind_eq_ok_iff.1 h
    obtain ⟨⟨b, u⟩, hrun, hstep⟩ := bind_eq_ok_iff.1 hstep
    obtain rfl := pure_eq_ok_iff.1 hstep
    obtain ⟨hfrom, hto⟩ := ih h
    refine ⟨fun n b' hget => ?_, fun n hn => hto n ?_⟩
    · rcases hfrom n b' hget with hget | ⟨b₀, hmem, hb₀⟩
      · rw [SortedMap.get?_insert] at hget
        split_ifs at hget with hn
        · obtain rfl := Option.some.inj hget
          exact .inr ⟨e.2, by rw [hn]; exact List.mem_cons_self, hrun⟩
        · exact .inl hget
      · exact .inr ⟨b₀, List.mem_cons_of_mem _ hmem, hb₀⟩
    · rw [SortedMap.contains, SortedMap.get?_insert]
      split_ifs with hne
      · exact .inl rfl
      · rcases hn with hn | ⟨b₀, hmem⟩
        · exact .inl hn
        · have htail : (n, b₀) ∈ l :=
            (List.mem_cons.1 hmem).resolve_left fun he => hne (congrArg Prod.fst he)
          exact .inr ⟨b₀, htail⟩

/-- Rewritten schemas are those there were, each under its name. -/
theorem get?_rewriteSchemas {p : Property} {schemas schemas' : SortedMap String Blueprint}
    (h : rewriteSchemas p schemas = .ok schemas') :
    (∀ n b', schemas'.get? n = some b' →
      ∃ b, schemas.get? n = some b ∧ (b.mapProperties (replaceBy p)).run () = .ok (b', ())) ∧
    ∀ n, schemas.contains n → schemas'.contains n := by
  obtain ⟨hfrom, hto⟩ := get?_foldlM_rewrite h
  refine ⟨fun n b' hb' => ?_, fun n hn => hto n (.inr ?_)⟩
  · rcases hfrom n b' hb' with hnone | ⟨b, hmem, hrun⟩
    · simp at hnone
    · exact ⟨b, SortedMap.mem_toList_iff.1 hmem, hrun⟩
  · obtain ⟨b, hb⟩ := SortedMap.contains_iff.1 hn
    exact ⟨b, SortedMap.mem_toList_iff.2 hb⟩

theorem rel_rewriteSchemas {p : Property} {schemas schemas' : SortedMap String Blueprint}
    (h : rewriteSchemas p schemas = .ok schemas') (n : String) :
    Option.Rel (fun b b' => (b.mapProperties (replaceBy p)).run () = .ok (b', ())) (schemas.get? n)
      (schemas'.get? n) := by
  obtain ⟨hfrom, hto⟩ := get?_rewriteSchemas h
  cases hb' : schemas'.get? n with
  | some b' =>
    obtain ⟨b, hb, hrun⟩ := hfrom n b' hb'
    rw [hb]
    exact .some hrun
  | none =>
    cases hb : schemas.get? n with
    | none => exact .none
    | some b =>
      obtain ⟨b', hkept⟩ := SortedMap.contains_iff.1 (hto n (SortedMap.contains_iff.2 ⟨b, hb⟩))
      cases hb'.symm.trans hkept

/-- Rewritten schemas are those there were, with the property in the place of the one with its
surrogate. -/
theorem rewriteSchemas_eq_ok {p : Property} {schemas schemas' : SortedMap String Blueprint}
    (h : rewriteSchemas p schemas = .ok schemas') {n : String} {b' : Blueprint}
    (hb' : schemas'.get? n = some b') :
    ∃ b, schemas.get? n = some b ∧ b'.name = b.name ∧ b'.surrogate = b.surrogate ∧
      ∀ q ∈ b'.properties, ∃ r ∈ b.properties,
        q = if r.surrogate.agrees p.surrogate then p else r := by
  obtain ⟨b, hb, hrun⟩ := (get?_rewriteSchemas h).1 n b' hb'
  have heq := mapProperties_eq_ok hrun
  exact ⟨b, hb, by rw [heq], by rw [heq], fun q hq => mem_properties_of_replaceBy hrun hq⟩

theorem updateProperty_cases (s : Store) (p : Property) :
    (∃ e, s.updateProperty p = .fail s e) ∨
      ∃ old schemas, p.surrogate.database = s.database ∧ s.findProperty? p.surrogate = some old ∧
        (old.name ≠ p.name → s.properties.get? p.name = none) ∧
        rewriteSchemas p s.schemas = .ok schemas ∧ s.updateProperty p = .ok { s with
          schemas, properties := (s.properties.erase old.name).insert p.name p } () := by
  unfold updateProperty
  rcases Outcome.ofExcept_cases s _ with h | ⟨u, s', hrun, h⟩
  · exact .inl h
  · rw [h]
    obtain ⟨_, howned, hrun⟩ := bind_eq_ok_iff.1 hrun
    cases hold : s.findProperty? p.surrogate with
    | none =>
      rw [hold] at hrun
      cases hrun
    | some old =>
      simp only [hold] at hrun
      split_ifs at hrun with hname
      · obtain ⟨_, hfree, hrun⟩ := bind_eq_ok_iff.1 hrun
        obtain ⟨schemas, hschemas, hrun⟩ := bind_eq_ok_iff.1 hrun
        refine .inr ⟨old, schemas, (checkOwned_eq_ok howned).2, rfl, fun _ => checkFree_eq_ok hfree,
          hschemas, ?_⟩
        rw [← (Prod.mk.inj (pure_eq_ok_iff.1 hrun)).2]
      · obtain ⟨schemas, hschemas, hrun⟩ := bind_eq_ok_iff.1 hrun
        refine .inr ⟨old, schemas, (checkOwned_eq_ok howned).2, rfl, fun hne => absurd hne hname,
          hschemas, ?_⟩
        rw [← (Prod.mk.inj (pure_eq_ok_iff.1 hrun)).2]

theorem updateProperty_eq {p old : Property}
    (howned : p.surrogate.kind = .property ∧ p.surrogate.database = s.database)
    (hold : s.findProperty? p.surrogate = some old)
    (hfree : old.name ≠ p.name → s.properties.get? p.name = none) :
    s.updateProperty p = .ofExcept s do
      let schemas ← rewriteSchemas p s.schemas
      return ((), { s with schemas, properties := (s.properties.erase old.name).insert p.name p }) := by
  rw [updateProperty, checkOwned, if_pos howned]
  simp only [ok_bind, hold]
  split_ifs with hname
  · rw [checkFree, SortedMap.contains_eq_false_iff.2 (hfree hname)]
    rfl
  · rfl

theorem properties_createSchema (s : Store) (b : Blueprint) :
    (s.createSchema b).state.properties = s.properties := by
  obtain ⟨e, hs⟩ | ⟨-, -, hs⟩ := createSchema_cases s b <;> rw [hs] <;> rfl

theorem properties_updateSchema (s : Store) (b : Blueprint) :
    (s.updateSchema b).state.properties = s.properties := by
  obtain ⟨e, hs⟩ | ⟨old, -, -, hs⟩ := updateSchema_cases s b <;> rw [hs] <;> rfl

theorem schemas_createValueType (s : Store) (t : ValueType) :
    (s.createValueType t).state.schemas = s.schemas := by
  obtain ⟨e, hs⟩ | ⟨-, -, hs⟩ := createValueType_cases s t <;> rw [hs] <;> rfl

theorem schemas_createProperty (s : Store) (p : Property) :
    (s.createProperty p).state.schemas = s.schemas := by
  obtain ⟨e, hs⟩ | ⟨-, -, hs⟩ := createProperty_cases s p <;> rw [hs] <;> rfl

theorem schemas_createChronicle (s : Store) (c : StoredChronicle) :
    (s.createChronicle c).state.schemas = s.schemas := by
  obtain ⟨e, hs⟩ | ⟨-, -, hs⟩ := createChronicle_cases s c <;> rw [hs] <;> rfl

theorem schemas_deleteProperty (s : Store) (x : Surrogate) :
    (s.deleteProperty x).state.schemas = s.schemas := by
  unfold Store.deleteProperty
  cases s.findProperty? x <;> rfl

/-- A stored chronicle can be deleted. -/
theorem deleteChronicle_eq_ok (h : Registered s.database .chronicle s.lastId StoredChronicle.fullName
    StoredChronicle.surrogate s.chronicles) {n : String} {c : StoredChronicle}
    (hc : s.chronicles.get? n = some c) :
    s.deleteChronicle c.surrogate = .ok { s with chronicles := s.chronicles.erase n } () := by
  obtain ⟨hname, hfind⟩ := h.navigable.of_name n c hc
  unfold Store.deleteChronicle
  rw [hfind, ← hname]
  rfl

theorem schemas_deleteChronicle (s : Store) (x : Surrogate) :
    (s.deleteChronicle x).state.schemas = s.schemas := by
  unfold Store.deleteChronicle
  cases s.chronicles.findValue? (·.surrogate.agrees x) <;> rfl

/-- Where a schema comes from that is stored under the name after a request: it has been there before,
or the request has brought it in, or has put a property into it. -/
inductive Origin (s : Store) (r : Request) (n : String) : Blueprint → Prop
  | kept {b : Blueprint} (hb : s.schemas.get? n = some b) : Origin s r n b
  | brought {b : Blueprint} (x : Surrogate) (hr : r.schema? = some b) :
      Origin s r n (Blueprint.close { b with surrogate := x })
  | rewritten {p : Property} {b b' : Blueprint} (hr : r = .updateProperty p)
      (hok : (s.updateProperty p).result = .ok ()) (hb : s.schemas.get? n = some b)
      (hrun : (b.mapProperties (replaceBy p)).run () = .ok (b', ())) : Origin s r n b'

theorem origin_of_serve {r : Request} {n : String} {b : Blueprint}
    (h : (s.serve r).schemas.get? n = some b) : s.Origin r n b := by
  cases r with
  | createSchema b₀ =>
    rw [serve] at h
    obtain ⟨e, hs⟩ | ⟨-, -, hs⟩ := createSchema_cases s b₀
    · rw [hs] at h
      exact .kept h
    · rw [hs] at h
      simp only [Outcome.ok, SortedMap.get?_insert] at h
      split_ifs at h
      · exact Option.some.inj h ▸ .brought _ rfl
      · exact .kept h
  | updateSchema b₀ =>
    rw [serve] at h
    obtain ⟨e, hs⟩ | ⟨old, -, -, hs⟩ := updateSchema_cases s b₀
    · rw [hs] at h
      exact .kept h
    · rw [hs] at h
      simp only [Outcome.ok, SortedMap.get?_insert, SortedMap.get?_erase] at h
      split_ifs at h
      · exact Option.some.inj h ▸ .brought b₀.surrogate rfl
      · exact .kept h
  | deleteSchema x =>
    rw [serve, deleteSchema] at h
    cases hx : s.loadSchema x with
    | none =>
      rw [hx] at h
      exact .kept h
    | some b₀ =>
      rw [hx] at h
      simp only [Outcome.ofExcept, Outcome.ok, pure, Except.pure, SortedMap.get?_erase] at h
      split_ifs at h
      exact .kept h
  | updateProperty p =>
    rw [serve] at h
    obtain ⟨e, hs⟩ | ⟨old, schemas, -, -, -, hschemas, hs⟩ := updateProperty_cases s p
    · rw [hs] at h
      exact .kept h
    · have hok : (s.updateProperty p).result = .ok () := by rw [hs]; rfl
      rw [hs] at h
      obtain ⟨b₀, hb₀, hrun⟩ := (get?_rewriteSchemas hschemas).1 n b h
      exact .rewritten rfl hok hb₀ hrun
  | createValueType t => exact .kept (schemas_createValueType s t ▸ h)
  | insertValueType t =>
    have hstate : s.serve (.insertValueType t) = (s.createValueType t).state :=
      congrArg Outcome.state (map_insertValueType s t)
    rw [hstate, schemas_createValueType] at h
    exact .kept h
  | createProperty p => exact .kept (schemas_createProperty s p ▸ h)
  | insertProperty p =>
    have hstate : s.serve (.insertProperty p) = (s.createProperty p).state :=
      congrArg Outcome.state (map_insertProperty s p)
    rw [hstate, schemas_createProperty] at h
    exact .kept h
  | deleteProperty x => exact .kept (schemas_deleteProperty s x ▸ h)
  | createChronicle c => exact .kept (schemas_createChronicle s c ▸ h)
  | deleteChronicle x => exact .kept (schemas_deleteChronicle s x ▸ h)

end ChronicleMeta.Store
