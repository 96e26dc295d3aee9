import ChronicleMeta.Proofs.Cache.SchemaUses
import ChronicleMeta.Proofs.Cache.Sharing
import ChronicleMeta.Proofs.PropertyMap
import ChronicleMeta.Proofs.Resolution

/-!
The uses of a property are the cached schemas that refer to it, unless it is of the database of the
built-in objects: such a property is counted for every copy of a schema that the cache makes, and
stays when the schema is dropped.
-/

namespace ChronicleMeta

/-- Schemas as they come about: they are merged from a chain, and copied with other properties. -/
inductive Schema.Obtained : Schema → Prop where
  | merged {source : Source} {maxDepth : Nat} {b : Blueprint} {s : Schema}
      (h : b.merge source maxDepth = .ok s) : Obtained s
  | copied {σ : Type} {f : PropertyMap σ} {s t : Schema} {a b : σ} (hs : Obtained s)
      (h : (s.mapProperties f).run a = .ok (t, b)) : Obtained t

theorem Schema.Obtained.frozen {s : Schema} (h : s.Obtained) : s.definitions.Frozen := by
  induction h with
  | merged h =>
    obtain ⟨chain, d, -, hd, rfl⟩ := Blueprint.merge_eq_ok h
    exact (Blueprint.flatten_flattens hd).frozen
  | copied _ h ih =>
    obtain ⟨d, hd, rfl⟩ := Schema.mapProperties_eq_ok h
    exact (ih.mapProperties hd).1

namespace Cache

def sharedSchemas (c : Cache) : List SharedSchema := c.schemas.values.map (·.value)

variable {c c' : Cache} {k : Identity} {s : SharedSchema} {n : Nat}

theorem sharedSchemas_eq_nil (h : c.schemas = ∅) : c.sharedSchemas = [] := by
  rw [sharedSchemas, h]
  rfl

private theorem values_eq (m : SortedMap Identity (Counted SharedSchema)) :
    m.values.map (·.value) = m.toList.map (·.2.value) := List.map_map

theorem sharedSchemas_perm_erase (hg : c.schemas.get? k = some ⟨n, s⟩)
    (hc : c'.schemas = c.schemas.erase k) :
    c.sharedSchemas.Perm (s :: c'.sharedSchemas) := by
  rw [sharedSchemas, sharedSchemas, values_eq, values_eq, hc]
  exact (SortedMap.toList_perm_cons_erase hg).map (·.2.value)

theorem sharedSchemas_perm_insert (hg : c.schemas.get? k = none)
    (hc : c'.schemas = c.schemas.insert k ⟨n, s⟩) :
    c'.sharedSchemas.Perm (s :: c.sharedSchemas) := by
  rw [sharedSchemas, sharedSchemas, values_eq, values_eq, hc]
  have hperm := (SortedMap.toList_insert_perm c.schemas k ⟨n, s⟩).map (·.2.value)
  rwa [SortedMap.erase_eq_self hg] at hperm

theorem sharedSchemas_perm_update {n' : Nat} (hg : c.schemas.get? k = some ⟨n, s⟩)
    (hc : c'.schemas = c.schemas.insert k ⟨n', s⟩) :
    c'.sharedSchemas.Perm c.sharedSchemas := by
  rw [sharedSchemas, sharedSchemas, values_eq, values_eq, hc]
  exact ((SortedMap.toList_insert_perm c.schemas k ⟨n', s⟩).map (·.2.value)).trans
    ((SortedMap.toList_perm_cons_erase hg).map (·.2.value)).symm

/-- By how many a property is counted: by cached schemas or, if it is of the database of the
built-in objects, by all the copies that have been made. -/
def counters (copies : List SharedSchema) (c : Cache) (k : Identity) : Nat :=
  if k.database.isBuiltin then copies.countP (·.schema.counts k)
  else c.sharedSchemas.countP (·.schema.counts k)

/-- The properties are counted by the copies, of which each has a number of its own and of which the
cached schemas are some. -/
structure Balanced (copies : List SharedSchema) (c : Cache) (users : List SharedSchema) : Prop where
  tallied : Tallied c users
  keeps : Keeps (counters copies c) c.properties
  copied : ∀ s ∈ c.sharedSchemas, s ∈ copies
  serial_lt : ∀ s ∈ copies, ∃ i < c.copies, s.origin = some (.cached i)
  nodup : (copies.map (·.origin)).Nodup

variable {copies users : List SharedSchema}

theorem balanced_nil (hs : c.schemas = ∅) (hp : c.properties = ∅) : Balanced [] c [] where
  tallied := tallied_nil hs
  keeps := by
    rw [hp]
    exact keeps_empty.congr fun k => by simp [counters, sharedSchemas_eq_nil hs]
  copied := by simp [sharedSchemas_eq_nil hs]
  serial_lt := by simp
  nodup := List.nodup_nil

/-- The release of a user keeps the cached schemas and the properties, or drops the schema and
releases its properties. -/
theorem Tallied.release_cases (h : Tallied c (s :: users)) (hc : c.releaseSchema s.schema = .ok c') :
    (c'.sharedSchemas.Perm c.sharedSchemas ∧ c'.properties = c.properties) ∨
      (c.sharedSchemas.Perm (s :: c'.sharedSchemas) ∧
        c'.properties = (countedProperties s.schema).foldl Cache.releaseProperty c.properties) := by
  obtain ⟨k, hk, hv⟩ := h.shared s List.mem_cons_self
  obtain ⟨k', hk', hcase⟩ := releaseSchema_eq_ok hc
  obtain rfl : k' = k := Option.some.inj (hk'.symm.trans hk)
  obtain ⟨-, rfl⟩ | ⟨t, hone, rfl⟩ | ⟨i, t, hmany, rfl⟩ := hcase
  · exact .inl ⟨.refl _, rfl⟩
  · obtain rfl : t = s := by simpa [hone] using hv
    exact .inr ⟨sharedSchemas_perm_erase hone rfl, rfl⟩
  · exact .inl ⟨sharedSchemas_perm_update hmany rfl, rfl⟩

theorem Balanced.release (h : Balanced copies c (s :: users)) :
    ∃ c', c.releaseSchema s.schema = .ok c' ∧ Balanced copies c' users := by
  obtain ⟨c', hc, ht⟩ := h.tallied.release
  have hcopies : c'.copies = c.copies := by rw [releaseSchema_frame hc]
  refine ⟨c', hc, ht, ?_, ?_, by rw [hcopies]; exact h.serial_lt, h.nodup⟩
  · obtain ⟨hperm, hprops⟩ | ⟨hperm, hprops⟩ := h.tallied.release_cases hc
    · rw [hprops]
      exact h.keeps.congr fun k => by rw [counters, counters, hperm.countP_eq]
    · rw [hprops]
      refine (h.keeps.releaseAll (nodup_countedProperties s.schema)).congr fun k => ?_
      rw [counters, counters, hperm.countP_eq, List.countP_cons]
      by_cases hb : k.database.isBuiltin
      · simp [mem_countedProperties_iff, hb]
      · by_cases hs : s.schema.counts k <;> simp [mem_countedProperties_iff, hb, hs]
  · intro u hu
    obtain ⟨hperm, -⟩ | ⟨hperm, -⟩ := h.tallied.release_cases hc
    · exact h.copied u (hperm.mem_iff.1 hu)
    · exact h.copied u (hperm.mem_iff.2 (List.mem_cons_of_mem _ hu))

/-- A copy is made where the schema was not cached, and is a copy more. -/
theorem Balanced.acquire {schema : Schema} (h : Balanced copies c users)
    (hk : schema.surrogate.identity? = some k) (hobtained : schema.Obtained)
    (ha : c.acquireSchema k schema = .ok (s, c')) :
    Balanced (if c'.copies = c.copies then copies else s :: copies) c' (s :: users) := by
  have ht := h.tallied.acquire hk ha
  obtain ⟨n, hg, hc'⟩ | ⟨hg, copy, sharing, hrun, rfl, hc'⟩ := acquireSchema_eq_ok ha
  · have hperm := sharedSchemas_perm_update hg (congrArg schemas hc')
    subst hc'
    rw [if_pos rfl]
    refine ⟨ht, ?_, fun u hu => h.copied u (hperm.mem_iff.1 hu), h.serial_lt, h.nodup⟩
    exact h.keeps.congr fun k => by rw [counters, counters, hperm.countP_eq]
  · obtain ⟨d, hd, rfl⟩ := Schema.mapProperties_eq_ok hrun
    have hperm := sharedSchemas_perm_insert hg (congrArg schemas hc')
    subst hc'
    rw [if_neg (Nat.succ_ne_self c.copies)]
    obtain ⟨-, hproperties⟩ := hobtained.frozen.mapProperties hd
    have hkeeps := h.keeps.mapM_share hproperties
    have hfresh : ∀ u ∈ copies, u.origin ≠ some (.cached c.copies) := by
      intro u hu he
      obtain ⟨i, hi, ho⟩ := h.serial_lt u hu
      rw [ho, Option.some.injEq, Origin.cached.injEq] at he
      omega
    refine ⟨ht, hkeeps.congr fun j => ?_, fun u hu => ?_, ?_, ?_⟩
    · rw [counters, counters, hperm.countP_eq, List.countP_cons, List.countP_cons]
      by_cases hb : j.database.isBuiltin
      · simp only [hb, if_true]
        rfl
      · simp only [hb, Bool.false_eq_true, if_false]
        rfl
    · rcases List.mem_cons.1 (hperm.mem_iff.1 hu) with rfl | hu
      · exact List.mem_cons_self
      · exact List.mem_cons_of_mem _ (h.copied u hu)
    · refine List.forall_mem_cons.2 ⟨⟨c.copies, Nat.lt_succ_self _, rfl⟩, fun u hu => ?_⟩
      obtain ⟨i, hi, ho⟩ := h.serial_lt u hu
      exact ⟨i, Nat.lt_succ_of_lt hi, ho⟩
    · rw [List.map_cons, List.nodup_cons]
      refine ⟨fun hmem => ?_, h.nodup⟩
      obtain ⟨u, hu, ho⟩ := List.mem_map.1 hmem
      exact hfresh u hu ho

theorem account_balanced (copies : List SharedSchema) : Account (Balanced copies) where
  frame {c c' users} hs hp hc h := by
    have hshared : c'.sharedSchemas = c.sharedSchemas := by rw [sharedSchemas, sharedSchemas, hs]
    refine ⟨account_tallied.frame hs hp hc h.tallied, ?_, ?_, ?_, h.nodup⟩
    · rw [hp]
      exact h.keeps.congr fun k => by rw [counters, counters, hshared]
    · rw [hshared]
      exact h.copied
    · rw [hc]
      exact h.serial_lt
  perm hp h := ⟨account_tallied.perm hp h.tallied, h.keeps, h.copied, h.serial_lt, h.nodup⟩
  release := Balanced.release

/-- The copy of a schema that the request makes, if it makes one. -/
def copied? (c : Cache) (r : Request) : Option SharedSchema :=
  match (c.serve r).result with
  | .ok (.chronicle (some stored)) =>
    if (c.serve r).state.copies = c.copies then none else some stored.schema
  | _ => none

/-- The copies made since everything was dropped, after a request more. -/
def copiesWith (c : Cache) (copies : List SharedSchema) (r : Request) : List SharedSchema :=
  match r with
  | .clear => []
  | r => (c.copied? r).toList ++ copies

/-- The copies made during the requests since everything was dropped, the latest first. -/
def copiesOf (c : Cache) (copies : List SharedSchema) : List Request → List SharedSchema
  | [] => copies
  | r :: rs => (c.serve r).state.copiesOf (c.copiesWith copies r) rs

theorem copied?_eq_none {r : Request} (h : (c.serve r).state.copies = c.copies) :
    c.copied? r = none := by
  unfold copied?
  split
  · rw [if_pos h]
  · rfl

theorem copiesWith_eq_self {r : Request} (hr : r ≠ .clear)
    (h : (c.serve r).state.copies = c.copies) : c.copiesWith copies r = copies := by
  unfold copiesWith
  split
  · exact absurd rfl hr
  · rw [copied?_eq_none h]
    rfl

theorem Balanced.serve_store (hu : c.chronicles.Unique) (h : Balanced copies c c.users)
    {chronicle : Chronicle} (hobtained : chronicle.schema.schema.Obtained) :
    Balanced (c.copiesWith copies (.store chronicle)) (c.serve (.store chronicle)).state
      (c.serve (.store chronicle)).state.users := by
  -- The copies afterwards are known once the schema has been taken up, before the release.
  obtain ⟨copies', hcopies'⟩ : ∃ copies', ∀ k s c₁,
      chronicle.schema.schema.surrogate.identity? = some k →
      c.acquireSchema k chronicle.schema.schema = .ok (s, c₁) →
      copies' = if c₁.copies = c.copies then copies else s :: copies := by
    cases chronicle.schema.schema.surrogate.identity? with
    | none => exact ⟨copies, by simp⟩
    | some k =>
      cases hacq : c.acquireSchema k chronicle.schema.schema with
      | error e =>
        refine ⟨copies, fun k' s c₁ hk' hacq' => ?_⟩
        obtain rfl := Option.some.inj hk'
        simp [hacq] at hacq'
      | ok r =>
        refine ⟨if r.2.copies = c.copies then copies else r.1 :: copies,
          fun k' s c₁ hk' hacq' => ?_⟩
        obtain rfl := Option.some.inj hk'
        rw [hacq, Except.ok.injEq] at hacq'
        rw [hacq']
  rcases (account_balanced copies').store hu chronicle (fun k s c₁ hk hacq =>
      hcopies' k s c₁ hk hacq ▸ h.acquire hk hobtained hacq) with
    ⟨e, hs, -⟩ | ⟨k, cached, -, -, -, hs⟩ | ⟨k, ks, s, c₁, c', -, hks, hacq, hs, hP', -, -, hcopies, -⟩
  · have hstate : (c.serve (.store chronicle)).state = c := by
      rw [Cache.serve, hs]
      rfl
    rw [copiesWith_eq_self (by simp) (by rw [hstate]), hstate]
    exact h
  · have hstate : (c.serve (.store chronicle)).state =
        { c with chronicles := c.chronicles.promote k } := by
      rw [Cache.serve, hs]
      rfl
    rw [copiesWith_eq_self (by simp) (by rw [hstate]), hstate]
    have hp := (Recency.perm_promote hu k).symm.map (·.2.schema)
    exact (account_balanced copies).frame (c := c) rfl rfl rfl
      ((account_balanced copies).perm hp h)
  · have hserve : c.serve (.store chronicle) =
        .ok c' (.chronicle (some { chronicle with schema := s })) := by
      rw [Cache.serve, hs]
      rfl
    have hwith : c.copiesWith copies (.store chronicle) = copies' := by
      rw [copiesWith, copied?, hserve, hcopies' ks s c₁ hks hacq, ← hcopies]
      · by_cases hsame : c'.copies = c.copies
        · simp [Outcome.ok, hsame]
        · simp [Outcome.ok, hsame]
      · simp
    rw [hwith, hserve]
    exact hP'

/-- The properties stay balanced if the schemas that are stored have come about as schemas do. -/
theorem Balanced.serve (hu : c.chronicles.Unique) (h : Balanced copies c c.users) (r : Request)
    (hobtained : ∀ chronicle, r = .store chronicle → chronicle.schema.schema.Obtained) :
    Balanced (c.copiesWith copies r) (c.serve r).state (c.serve r).state.users := by
  by_cases hstore : ∃ chronicle, r = .store chronicle
  · obtain ⟨chronicle, rfl⟩ := hstore
    exact h.serve_store hu (hobtained chronicle rfl)
  by_cases hclear : r = .clear
  · subst hclear
    exact balanced_nil rfl rfl
  have hcopies : (c.serve r).state.copies = c.copies := by
    cases r with
    | store chronicle => exact absurd ⟨chronicle, rfl⟩ hstore
    | lookUp x =>
      obtain ⟨chronicles, stats, hs, -⟩ := lookUp_state hu x
      rw [Cache.serve, Outcome.ok, hs]
    | lookUpName fullName =>
      obtain ⟨chronicles, stats, hs, -⟩ := lookUpName_state hu fullName
      rw [Cache.serve, Outcome.ok, hs]
    | clearChronicle x =>
      obtain ⟨b, c', hs, -, -, hc', -⟩ := (account_balanced copies).clearChronicle hu h x
      rw [Cache.serve, hs]
      exact hc'
    | clear => exact absurd rfl hclear
    | resetStats => rfl
  rw [copiesWith_eq_self hclear hcopies]
  exact ((account_balanced copies).serve hu h r (fun e => absurd e hclear)
    fun chronicle e => absurd ⟨chronicle, e⟩ hstore).2.1

theorem Balanced.run (hu : c.chronicles.Unique) (h : Balanced copies c c.users) {rs : List Request}
    (hobtained : ∀ chronicle, .store chronicle ∈ rs → chronicle.schema.schema.Obtained) :
    Balanced (c.copiesOf copies rs) (c.run rs) (c.run rs).users := by
  induction rs generalizing c copies with
  | nil => exact h
  | cons r rs ih =>
    have hunique := (Counts.serve ⟨hu, h.tallied⟩ r).1.unique
    have hserve := h.serve hu r fun chronicle hr => hobtained chronicle (hr ▸ List.mem_cons_self)
    exact ih hunique hserve fun chronicle hr => hobtained chronicle (List.mem_cons_of_mem _ hr)

/-- The cached schemas are different copies. -/
theorem Balanced.nodup_sharedSchemas (h : Balanced copies c users) : c.sharedSchemas.Nodup := by
  refine List.Nodup.of_map (fun s => s.schema.surrogate.identity?) ?_
  have hkeys : c.sharedSchemas.map (fun s => s.schema.surrogate.identity?) =
      c.schemas.toList.map (fun e => some e.1) := by
    rw [sharedSchemas, values_eq, List.map_map]
    refine List.map_congr_left fun ⟨k, n, s⟩ he => ?_
    exact (h.tallied.mem_users (SortedMap.mem_toList_iff.1 he)).2.2
  rw [hkeys, ← Function.comp_def, ← List.map_map]
  exact (SortedMap.nodup_keys c.schemas).map fun _ _ => Option.some.inj

/-- The copies that refer to a property are as many as the cached schemas that do exactly if all of
them are still cached. -/
theorem Balanced.countP_eq_iff (h : Balanced copies c users) (k : Identity) :
    copies.countP (·.schema.counts k) = c.sharedSchemas.countP (·.schema.counts k) ↔
      ∀ s ∈ copies, s.schema.counts k → s ∈ c.sharedSchemas := by
  have hsub : (c.sharedSchemas.filter (·.schema.counts k)).Subperm
      (copies.filter (·.schema.counts k)) := by
    refine List.subperm_of_subset (h.nodup_sharedSchemas.filter _) fun s hs => ?_
    obtain ⟨hs, hk⟩ := List.mem_filter.1 hs
    exact List.mem_filter.2 ⟨h.copied s hs, hk⟩
  rw [List.countP_eq_length_filter, List.countP_eq_length_filter]
  constructor
  · intro hlength s hs hk
    have hperm := hsub.perm_of_length_le (Nat.le_of_eq hlength)
    exact (List.mem_filter.1 (hperm.mem_iff.2 (List.mem_filter.2 ⟨hs, hk⟩))).1
  · intro hcached
    have hnodup : (copies.filter (·.schema.counts k)).Nodup := (h.nodup.of_map _).filter _
    refine Nat.le_antisymm (List.Subperm.length_le (List.subperm_of_subset hnodup fun s hs => ?_))
      hsub.length_le
    obtain ⟨hs, hk⟩ := List.mem_filter.1 hs
    exact List.mem_filter.2 ⟨hcached s hs hk, hk⟩

/-- After any requests to a cache, a property is counted by the cached schemas that refer to it or,
if it is of the database of the built-in objects, by the copies of schemas made since everything was
dropped that do. So the cached schemas are counted exactly if the property is of another database or
all these copies are still cached. Nothing else stays when no chronicle is cached. -/
theorem propertyUses_run (capacity : Nat) (h : 0 < capacity) (rs : List Request)
    (hrs : ∀ chronicle, .store chronicle ∈ rs → chronicle.schema.schema.Obtained) :
    let c := (Cache.empty capacity h).run rs
    let copies := (Cache.empty capacity h).copiesOf [] rs
    (∀ k, c.propertyUses? (.ofIdentity k) = positive? (if k.database.isBuiltin then
      copies.countP (·.schema.counts k) else c.sharedSchemas.countP (·.schema.counts k))) ∧
    (∀ k, c.propertyUses? (.ofIdentity k) = positive? (c.sharedSchemas.countP (·.schema.counts k)) ↔
      (k.database.isBuiltin → ∀ s ∈ copies, s.schema.counts k → s ∈ c.sharedSchemas)) ∧
    (c.chronicles = [] →
      c.schemas = ∅ ∧ ∀ k, k.database.isBuiltin = false → c.properties.get? k = none) := by
  intro c copies
  have hb : Balanced copies c c.users :=
    Balanced.run (c := Cache.empty capacity h) Recency.unique_nil (balanced_nil rfl rfl) hrs
  have huses : ∀ k, c.propertyUses? (.ofIdentity k) = positive? (counters copies c k) := fun k => by
    rw [← hb.keeps.uses_eq]
    rfl
  refine ⟨huses, fun k => ?_, fun hnone => ?_⟩
  · rw [huses, counters]
    by_cases hk : k.database.isBuiltin
    · simp only [hk, if_true, true_implies]
      rw [← hb.countP_eq_iff]
      exact positive?_inj
    · simp [hk]
  · have hempty : c.schemas = ∅ := SortedMap.ext_get? fun k => by
      have := hb.tallied.uses_eq k
      simpa [users, hnone] using this
    refine ⟨hempty, fun k hk => hb.keeps.get?_eq_none_iff.2 ?_⟩
    simp [counters, hk, sharedSchemas_eq_nil hempty]

/-- A property that is no built-in one, of the database of the built-in objects. -/
def strayProperty : Property where
  surrogate := .committed .builtin .property 99
  name := "custom"
  valueType := { surrogate := .committed ⟨1⟩ .valueType 1, name := "count", kind := .integer }

def strayBlueprint : Blueprint where
  surrogate := .committed ⟨1⟩ .schema 1
  name := "s"
  definitions := { attributes := { committed := {
    byNumber := .ofList [(1, {
      number := 1, property := some strayProperty, value := some (.integer 5) })]
    byName := .ofList [("custom", 1)] } } }

def straySchema : Schema where
  surrogate := .committed ⟨1⟩ .schema 1
  name := "s"
  definitions := { attributes := { committed := {
    byNumber := .ofList [(1, {
      number := 1, property := some strayProperty, value := some (.integer 5), editable := false })]
    byName := .ofList [("custom", 1)] } } }
  dependencies := [.committed ⟨1⟩ .schema 1]

theorem straySchema_obtained : straySchema.Obtained := by
  have hmerge : strayBlueprint.merge (fun _ => .ok none) 64 = .ok straySchema := by rfl
  exact .merged hmerge

def strayRequests : List Request :=
  [.store {
    surrogate := .committed ⟨1⟩ .chronicle 1
    name := "c"
    fullName := "c"
    schema := { schema := straySchema } },
   .clearChronicle (.committed ⟨1⟩ .chronicle 1)]

/-- A property of the database of the built-in objects stays counted when nothing is cached. -/
theorem propertyUses_run_stray :
    ((Cache.empty 1 Nat.one_pos).run strayRequests).chronicles = [] ∧
      ((Cache.empty 1 Nat.one_pos).run strayRequests).propertyUses? strayProperty.surrogate ≠
        positive? (((Cache.empty 1 Nat.one_pos).run strayRequests).sharedSchemas.countP
          (·.schema.counts ⟨.builtin, .property, 99⟩)) := by
  have hchronicles : ((Cache.empty 1 Nat.one_pos).run strayRequests).chronicles = [] := by rfl
  have hschemas : ((Cache.empty 1 Nat.one_pos).run strayRequests).sharedSchemas = [] := by rfl
  have huses : ((Cache.empty 1 Nat.one_pos).run strayRequests).propertyUses?
      strayProperty.surrogate = some 1 := by rfl
  refine ⟨hchronicles, ?_⟩
  rw [huses, hschemas]
  decide

theorem propertyUses_run_sample :
    ((Cache.empty 1 Nat.one_pos).run strayRequests).propertyUses?
      (.ofIdentity ⟨.builtin, .property, 99⟩) = some 1 := by
  have hstored : ∀ chronicle, .store chronicle ∈ strayRequests →
      chronicle.schema.schema.Obtained := by
    simp only [strayRequests, List.mem_cons, Request.store.injEq, reduceCtorEq, List.not_mem_nil,
      or_false, forall_eq]
    exact straySchema_obtained
  rw [(propertyUses_run 1 Nat.one_pos strayRequests hstored).1]
  rfl

end Cache

end ChronicleMeta
