import ChronicleMeta.Proofs.Store.Sealed

/-!
What a store looks like after any requests at all. Every object is under its name, with an id that the
store has given to no other, and every schema is closed. A request that fails changes nothing.
-/

namespace ChronicleMeta

/-- The blueprint is not in a session, and nothing of one is left: no change is recorded, and there is
no edit buffer. -/
structure Blueprint.Closed (b : Blueprint) : Prop where
  editing_eq : b.editing = false
  changes_eq : b.changes = {}
  resting : b.definitions.Resting

theorem Blueprint.closed_close (b : Blueprint) : b.close.Closed :=
  ⟨rfl, rfl, Definitions.resting_consolidate b.definitions⟩

namespace Store

/-- What the store answers: the id that a new object gets, and nothing where there is none. -/
def answer (s : Store) : Request → Edited Store (Option UInt64)
  | .createSchema b => (s.createSchema b).map some
  | .updateSchema b => (s.updateSchema b).map fun _ => none
  | .deleteSchema x => (s.deleteSchema x).map fun _ => none
  | .createValueType t => (s.createValueType t).map some
  | .insertValueType t => (s.insertValueType t).map (·.surrogate.id?)
  | .createProperty p => (s.createProperty p).map some
  | .insertProperty p => (s.insertProperty p).map (·.surrogate.id?)
  | .updateProperty p => (s.updateProperty p).map fun _ => none
  | .deleteProperty x => (s.deleteProperty x).map fun _ => none
  | .createChronicle c => (s.createChronicle c).map some
  | .deleteChronicle x => (s.deleteChronicle x).map fun _ => none

theorem state_answer (s : Store) (r : Request) : (s.answer r).state = s.serve r := by cases r <;> rfl

def Request.creates : Request → Bool
  | .createSchema _ | .createValueType _ | .insertValueType _ | .createProperty _
  | .insertProperty _ | .createChronicle _ => true
  | _ => false

/-- The surrogates of all stored objects, of whatever kind. -/
def surrogates (s : Store) : List Surrogate :=
  s.schemas.values.map (·.surrogate) ++ s.valueTypes.values.map (·.surrogate) ++
    s.properties.values.map (·.surrogate) ++ s.chronicles.values.map (·.surrogate)

variable {s s' : Store} {r : Request}

/-- The tables of the store, in each of which the objects are under their names, with ids that have
been assigned. -/
structure Tables (s : Store) : Prop where
  schemas : Registered s.database .schema s.lastId Blueprint.name Blueprint.surrogate s.schemas
  valueTypes :
    Registered s.database .valueType s.lastId ValueType.name ValueType.surrogate s.valueTypes
  properties :
    Registered s.database .property s.lastId Property.name Property.surrogate s.properties
  chronicles : Registered s.database .chronicle s.lastId StoredChronicle.fullName
    StoredChronicle.surrogate s.chronicles

/-- All that a request can do, told by its answer, to the surrogates and to the ids assigned. -/
inductive Answered (s : Store) : Edited Store (Option UInt64) → Prop
  | refused (e : Error) : Answered s (.fail s e)
  | created {s' : Store} (kind : ObjectKind) (hlt : s.lastId.toNat < s.nextId.toNat)
      (hlast : s'.lastId = s.nextId) (hdatabase : s'.database = s.database)
      (hnew : s'.surrogates.Perm (.committed s.database kind s.nextId :: s.surrogates)) :
      Answered s (.ok s' (some s.nextId))
  | replaced {s' : Store} (hlast : s'.lastId = s.lastId) (hdatabase : s'.database = s.database)
      (hsame : s'.surrogates.Perm s.surrogates) : Answered s (.ok s' none)
  | deleted {s' : Store} (x : Surrogate) (hlast : s'.lastId = s.lastId)
      (hdatabase : s'.database = s.database) (hgone : s.surrogates.Perm (x :: s'.surrogates)) :
      Answered s (.ok s' none)

/-- The surrogates of a store of whose tables each has those of the other's table, and perhaps more. -/
theorem surrogates_perm {t : Store} (l₁ l₂ l₃ l₄ : List Surrogate)
    (h₁ : (t.schemas.values.map (·.surrogate)).Perm (l₁ ++ s.schemas.values.map (·.surrogate)))
    (h₂ : (t.valueTypes.values.map (·.surrogate)).Perm
      (l₂ ++ s.valueTypes.values.map (·.surrogate)))
    (h₃ : (t.properties.values.map (·.surrogate)).Perm
      (l₃ ++ s.properties.values.map (·.surrogate)))
    (h₄ : (t.chronicles.values.map (·.surrogate)).Perm
      (l₄ ++ s.chronicles.values.map (·.surrogate))) :
    t.surrogates.Perm (l₁ ++ l₂ ++ l₃ ++ l₄ ++ s.surrogates) := by
  refine List.perm_iff_count.2 fun x => ?_
  have h₁ := h₁.count_eq x
  have h₂ := h₂.count_eq x
  have h₃ := h₃.count_eq x
  have h₄ := h₄.count_eq x
  simp only [List.count_append] at h₁ h₂ h₃ h₄
  simp only [surrogates, List.count_append]
  omega

theorem Tables.createSchema (h : s.Tables) (b : Blueprint) :
    (s.createSchema b).state.Tables ∧ s.Answered ((s.createSchema b).map some) := by
  obtain ⟨e, hs⟩ | ⟨hfree, hlt, hs⟩ := createSchema_cases s b
  · rw [hs]
    exact ⟨h, .refused e⟩
  · rw [hs]
    have hle := Nat.le_of_lt hlt
    refine ⟨⟨?_, h.valueTypes.mono hle, h.properties.mono hle, h.chronicles.mono hle⟩,
      .created .schema hlt rfl rfl ?_⟩
    · exact h.schemas.insert_new
        (a := Blueprint.close { b with surrogate := .committed s.database .schema s.nextId }) rfl hlt
    · exact surrogates_perm (s := s) [_] [] [] [] (surrogates_insert _ hfree) (.refl _) (.refl _) (.refl _)

theorem Tables.createValueType (h : s.Tables) (t : ValueType) :
    (s.createValueType t).state.Tables ∧ s.Answered ((s.createValueType t).map some) := by
  obtain ⟨e, hs⟩ | ⟨hfree, hlt, hs⟩ := createValueType_cases s t
  · rw [hs]
    exact ⟨h, .refused e⟩
  · rw [hs]
    have hle := Nat.le_of_lt hlt
    refine ⟨⟨h.schemas.mono hle, ?_, h.properties.mono hle, h.chronicles.mono hle⟩,
      .created .valueType hlt rfl rfl ?_⟩
    · exact h.valueTypes.insert_new (a := { t with surrogate := _ }) rfl hlt
    · exact surrogates_perm (s := s) [] [_] [] [] (.refl _) (surrogates_insert _ hfree) (.refl _) (.refl _)

theorem Tables.createProperty (h : s.Tables) (p : Property) :
    (s.createProperty p).state.Tables ∧ s.Answered ((s.createProperty p).map some) := by
  obtain ⟨e, hs⟩ | ⟨hfree, hlt, hs⟩ := createProperty_cases s p
  · rw [hs]
    exact ⟨h, .refused e⟩
  · rw [hs]
    have hle := Nat.le_of_lt hlt
    refine ⟨⟨h.schemas.mono hle, h.valueTypes.mono hle, ?_, h.chronicles.mono hle⟩,
      .created .property hlt rfl rfl ?_⟩
    · exact h.properties.insert_new (a := { p with surrogate := _ }) rfl hlt
    · exact surrogates_perm (s := s) [] [] [_] [] (.refl _) (.refl _) (surrogates_insert _ hfree) (.refl _)

theorem Tables.createChronicle (h : s.Tables) (c : StoredChronicle) :
    (s.createChronicle c).state.Tables ∧ s.Answered ((s.createChronicle c).map some) := by
  obtain ⟨e, hs⟩ | ⟨hfree, hlt, hs⟩ := createChronicle_cases s c
  · rw [hs]
    exact ⟨h, .refused e⟩
  · rw [hs]
    have hle := Nat.le_of_lt hlt
    refine ⟨⟨h.schemas.mono hle, h.valueTypes.mono hle, h.properties.mono hle, ?_⟩,
      .created .chronicle hlt rfl rfl ?_⟩
    · exact h.chronicles.insert_new (a := { c with surrogate := _ }) rfl hlt
    · exact surrogates_perm (s := s) [] [] [] [_] (.refl _) (.refl _) (.refl _) (surrogates_insert _ hfree)

theorem Tables.updateSchema (h : s.Tables) (b : Blueprint) :
    (s.updateSchema b).state.Tables ∧ s.Answered ((s.updateSchema b).map fun _ => none) := by
  obtain ⟨e, hs⟩ | ⟨old, hold, hfree, hs⟩ := updateSchema_cases s b
  · rw [hs]
    exact ⟨h, .refused e⟩
  · rw [hs]
    obtain ⟨hget, hagrees⟩ := h.schemas.findValue?_eq_some_iff.1 hold
    have hsurrogate : b.surrogate = old.surrogate := (Surrogate.agrees_iff.1 hagrees).1.symm
    refine ⟨⟨?_, h.valueTypes, h.properties, h.chronicles⟩, .replaced rfl rfl ?_⟩
    · exact h.schemas.replace (a := b.close) hget hsurrogate
    · exact surrogates_perm (s := s) [] [] [] [] (surrogates_replace hget hfree hsurrogate) (.refl _)
        (.refl _) (.refl _)

theorem Tables.deleteSchema (h : s.Tables) (x : Surrogate) :
    (s.deleteSchema x).state.Tables ∧ s.Answered ((s.deleteSchema x).map fun _ => none) := by
  unfold Store.deleteSchema
  cases hx : s.loadSchema x with
  | none => exact ⟨h, .refused _⟩
  | some b =>
    obtain ⟨hget, -⟩ := h.schemas.findValue?_eq_some_iff.1 hx
    refine ⟨⟨h.schemas.erase b.name, h.valueTypes, h.properties, h.chronicles⟩,
      .deleted b.surrogate rfl rfl ?_⟩
    exact surrogates_perm (t := s) [_] [] [] [] (surrogates_erase hget) (.refl _) (.refl _) (.refl _)

/-- The schemas keep their surrogates when a property is replaced in them. -/
theorem surrogates_rewriteSchemas {p : Property} {schemas schemas' : SortedMap String Blueprint}
    (h : rewriteSchemas p schemas = .ok schemas') :
    schemas'.values.map (·.surrogate) = schemas.values.map (·.surrogate) := by
  refine surrogates_eq fun n => ?_
  have hrel := rel_rewriteSchemas h n
  generalize schemas.get? n = b, schemas'.get? n = b' at hrel
  cases hrel with
  | none => rfl
  | some hrun => rw [Option.map_some, Option.map_some, mapProperties_eq_ok hrun]

theorem Tables.updateProperty (h : s.Tables) (p : Property) :
    (s.updateProperty p).state.Tables ∧ s.Answered ((s.updateProperty p).map fun _ => none) := by
  obtain ⟨e, hs⟩ | ⟨old, schemas, -, hold, hfree, hschemas, hs⟩ := updateProperty_cases s p
  · rw [hs]
    exact ⟨h, .refused e⟩
  · rw [hs]
    obtain ⟨hget, hagrees⟩ := h.properties.findValue?_eq_some_iff.1 hold
    have hsurrogate : p.surrogate = old.surrogate := (Surrogate.agrees_iff.1 hagrees).1.symm
    have hrewritten := surrogates_rewriteSchemas hschemas
    refine ⟨⟨?_, h.valueTypes, h.properties.replace hget hsurrogate, h.chronicles⟩,
      .replaced rfl rfl ?_⟩
    · refine h.schemas.of_forall fun n b' hb' => ?_
      obtain ⟨b, hb, hname, hsurrogate, -⟩ := rewriteSchemas_eq_ok hschemas hb'
      exact ⟨b, hb, hname, hsurrogate⟩
    · exact surrogates_perm (s := s) [] [] [] [] (.of_eq hrewritten) (.refl _)
        (surrogates_replace hget hfree hsurrogate) (.refl _)

theorem Tables.deleteProperty (h : s.Tables) (x : Surrogate) :
    (s.deleteProperty x).state.Tables ∧ s.Answered ((s.deleteProperty x).map fun _ => none) := by
  unfold Store.deleteProperty
  cases hx : s.findProperty? x with
  | none => exact ⟨h, .refused _⟩
  | some p =>
    obtain ⟨hget, -⟩ := h.properties.findValue?_eq_some_iff.1 hx
    refine ⟨⟨h.schemas, h.valueTypes, h.properties.erase p.name, h.chronicles⟩,
      .deleted p.surrogate rfl rfl ?_⟩
    exact surrogates_perm (t := s) [] [] [_] [] (.refl _) (.refl _) (surrogates_erase hget) (.refl _)

theorem Tables.deleteChronicle (h : s.Tables) (x : Surrogate) :
    (s.deleteChronicle x).state.Tables ∧ s.Answered ((s.deleteChronicle x).map fun _ => none) := by
  unfold Store.deleteChronicle
  cases hx : s.chronicles.findValue? (·.surrogate.agrees x) with
  | none => exact ⟨h, .refused _⟩
  | some c =>
    obtain ⟨hget, -⟩ := h.chronicles.findValue?_eq_some_iff.1 hx
    refine ⟨⟨h.schemas, h.valueTypes, h.properties, h.chronicles.erase c.fullName⟩,
      .deleted c.surrogate rfl rfl ?_⟩
    exact surrogates_perm (t := s) [] [] [] [_] (.refl _) (.refl _) (.refl _) (surrogates_erase hget)

theorem Tables.serve (h : s.Tables) (r : Request) :
    (s.serve r).Tables ∧ s.Answered (s.answer r) := by
  cases r with
  | createSchema b => exact h.createSchema b
  | updateSchema b => exact h.updateSchema b
  | deleteSchema x => exact h.deleteSchema x
  | createValueType t => exact h.createValueType t
  | insertValueType t =>
    rw [← state_answer, answer, map_insertValueType]
    exact h.createValueType t
  | createProperty p => exact h.createProperty p
  | insertProperty p =>
    rw [← state_answer, answer, map_insertProperty]
    exact h.createProperty p
  | updateProperty p => exact h.updateProperty p
  | deleteProperty x => exact h.deleteProperty x
  | createChronicle c => exact h.createChronicle c
  | deleteChronicle x => exact h.deleteChronicle x

theorem closed_serve (h : ∀ n b, s.schemas.get? n = some b → b.Closed) {n : String} {b' : Blueprint}
    (hb' : (s.serve r).schemas.get? n = some b') : b'.Closed := by
  cases origin_of_serve hb' with
  | kept hb => exact h n b' hb
  | brought x => exact Blueprint.closed_close _
  | @rewritten p b _ _ _ hb hrun =>
    obtain ⟨d, u, hd, hrun⟩ := run_bind_eq_ok_iff.1 hrun
    obtain ⟨rfl, -⟩ := run_pure_eq_ok_iff.1 hrun
    obtain ⟨hediting, hchanges, -⟩ := h n b hb
    exact ⟨hediting, hchanges, Definitions.resting_mapProperties hd⟩

/-- Every object is under its name and has an id of its own, and every schema is closed. -/
structure Consistent (s : Store) : Prop where
  tables : s.Tables
  /-- No two objects share an id, also not two of different kinds. -/
  distinct : (s.surrogates.map (·.id?)).Nodup
  closed : ∀ n b, s.schemas.get? n = some b → b.Closed

theorem consistent_empty (database : DatabaseId) : Consistent { database } where
  tables := ⟨registered_empty, registered_empty, registered_empty, registered_empty⟩
  distinct := List.nodup_nil
  closed := by simp

theorem Tables.exists_id (h : s.Tables) {x : Surrogate} (hx : x ∈ s.surrogates) :
    ∃ id, x.id? = some id ∧ id.toNat ≤ s.lastId.toNat := by
  simp only [surrogates, List.mem_append] at hx
  rcases hx with ((hx | hx) | hx) | hx
  · exact h.schemas.exists_id hx
  · exact h.valueTypes.exists_id hx
  · exact h.properties.exists_id hx
  · exact h.chronicles.exists_id hx

/-- The id of a new object is greater than all there are. -/
theorem Answered.distinct {answer : Edited Store (Option UInt64)} (h : s.Answered answer)
    (hs : s.Consistent) : (answer.state.surrogates.map (·.id?)).Nodup := by
  cases h with
  | refused => exact hs.distinct
  | created kind hlt _ _ hnew =>
    refine (hnew.map _).nodup_iff.2 (List.nodup_cons.2 ⟨fun hmem => ?_, hs.distinct⟩)
    obtain ⟨x, hx, hnext⟩ := List.mem_map.1 hmem
    obtain ⟨id, hid, hle⟩ := hs.tables.exists_id hx
    have heq : id = s.nextId := Option.some.inj (hid.symm.trans hnext)
    rw [heq] at hle
    omega
  | replaced _ _ hsame => exact (hsame.map _).nodup_iff.2 hs.distinct
  | deleted _ _ _ hgone => exact (List.nodup_cons.1 ((hgone.map _).nodup_iff.1 hs.distinct)).2

theorem Consistent.serve (h : s.Consistent) (r : Request) : (s.serve r).Consistent := by
  obtain ⟨htables, hanswered⟩ := h.tables.serve r
  have hdistinct := hanswered.distinct h
  rw [state_answer] at hdistinct
  exact ⟨htables, hdistinct, fun _ _ => closed_serve h.closed⟩

theorem Consistent.run (h : s.Consistent) (rs : List Request) :
    (rs.foldl Store.serve s).Consistent := by
  induction rs generalizing s with
  | nil => exact h
  | cons r rs ih => exact ih (h.serve r)

theorem Consistent.database_run (h : s.Consistent) (rs : List Request) :
    (rs.foldl Store.serve s).database = s.database := by
  induction rs generalizing s with
  | nil => rfl
  | cons r rs ih =>
    obtain ⟨-, hanswered⟩ := h.tables.serve r
    have hdatabase : (s.serve r).database = s.database := by
      rw [← state_answer]
      generalize s.answer r = answer at hanswered
      cases hanswered <;> first | rfl | assumption
    exact (ih (h.serve r)).trans hdatabase

/-- A request that fails changes nothing. -/
theorem Consistent.serve_of_error (h : s.Consistent) {e : Error}
    (he : (s.answer r).result = .error e) : s.serve r = s := by
  obtain ⟨-, hanswered⟩ := h.tables.serve r
  rw [← state_answer]
  generalize s.answer r = answer at he hanswered
  cases hanswered with
  | refused => rfl
  | _ => cases he

/-- The ids that the requests get, one after the other. -/
def given (s : Store) : List Request → List UInt64
  | [] => []
  | r :: rs =>
    match (s.answer r).result with
    | .ok (some id) => id :: given (s.serve r) rs
    | _ => given (s.serve r) rs

theorem Answered.toNat_lastId {s' : Store} {id : UInt64} (h : s.Answered (.ok s' (some id))) :
    id.toNat = s.lastId.toNat + 1 ∧ s'.lastId = id := by
  cases h with
  | created _ hlt hlast =>
    have hadd : s.nextId.toNat = (s.lastId.toNat + 1) % 2 ^ 64 := UInt64.toNat_add _ _
    exact ⟨by omega, hlast⟩

/-- The ids go up one by one. -/
theorem Consistent.given_eq (h : s.Consistent) (rs : List Request) :
    (given s rs).map (·.toNat) = List.range' (s.lastId.toNat + 1) (given s rs).length ∧
      (rs.foldl Store.serve s).lastId.toNat = s.lastId.toNat + (given s rs).length := by
  induction rs generalizing s with
  | nil => exact ⟨rfl, rfl⟩
  | cons r rs ih =>
    obtain ⟨-, hanswered⟩ := h.tables.serve r
    have hrest := ih (h.serve r)
    rw [← state_answer] at hrest
    rw [given, List.foldl_cons, ← state_answer]
    generalize s.answer r = answer at hanswered hrest ⊢
    cases hanswered with
    | refused => exact hrest
    | created kind hlt hlast hdatabase hnew =>
      obtain ⟨hnext, -⟩ := Answered.toNat_lastId (.created kind hlt hlast hdatabase hnew)
      obtain ⟨hrange, hcount⟩ := hrest
      simp only [Outcome.ok, hlast, hnext] at hrange hcount
      constructor
      · simp only [Outcome.ok, List.map_cons, List.length_cons, List.range'_succ, hrange, hnext]
      · simp only [Outcome.ok, List.length_cons, hcount]
        omega
    | replaced hlast => simpa only [Outcome.ok, hlast] using hrest
    | deleted _ hlast => simpa only [Outcome.ok, hlast] using hrest

/-- What is stored has been stored before the requests, or has got one of the ids they were given. -/
theorem Consistent.mem_given (h : s.Consistent) (rs : List Request) {x : Surrogate}
    (hx : x ∈ (rs.foldl Store.serve s).surrogates) :
    x ∈ s.surrogates ∨ ∃ id ∈ given s rs, x.id? = some id := by
  induction rs generalizing s with
  | nil => exact .inl hx
  | cons r rs ih =>
    obtain ⟨-, hanswered⟩ := h.tables.serve r
    have hrest := ih (h.serve r) hx
    rw [← state_answer] at hrest
    rw [given, ← state_answer]
    generalize s.answer r = answer at hanswered hrest ⊢
    cases hanswered with
    | refused => exact hrest
    | created kind _ _ _ hnew =>
      rcases hrest with hstored | ⟨id, hid, hxid⟩
      · rcases List.mem_cons.1 (hnew.mem_iff.1 hstored) with rfl | hold
        · exact .inr ⟨s.nextId, List.mem_cons_self, rfl⟩
        · exact .inl hold
      · exact .inr ⟨id, List.mem_cons_of_mem _ hid, hxid⟩
    | replaced _ _ hsame => exact hrest.imp_left hsame.mem_iff.1
    | deleted _ _ _ hgone => exact hrest.imp_left fun hx => hgone.mem_iff.2 (List.mem_cons_of_mem _ hx)

/-- Only who asks for a new object gets an id. -/
theorem creates_of_result {id : UInt64} (h : (s.answer r).result = .ok (some id)) :
    r.creates = true := by
  have hnone : ∀ {α : Type} (x : Edited Store α),
      (x.map fun _ => (none : Option UInt64)).result ≠ .ok (some id) := by
    intro α x hx
    obtain ⟨_, -, hid⟩ := map_eq_ok_iff.1 hx
    cases hid
  cases r with
  | createSchema | createValueType | insertValueType | createProperty | insertProperty
  | createChronicle => rfl
  | _ => exact absurd h (hnone _)

theorem length_given_le (s : Store) (rs : List Request) :
    (given s rs).length ≤ rs.countP Request.creates := by
  induction rs generalizing s with
  | nil => exact Nat.le_refl 0
  | cons r rs ih =>
    have hrest := ih (s.serve r)
    rw [given, List.countP_cons]
    split
    next id hid =>
      rw [creates_of_result hid]
      simpa using hrest
    next => exact Nat.le_add_right_of_le hrest

/-- Whatever is asked of a new store, at every moment every object is under its name and has a
committed surrogate of the right kind with an id of its own, and every schema is closed; so looking
objects up by name and by surrogate leads to the same ones. What fails changes nothing. The ids given
are the numbers from one on, and every stored object has one of them. -/
theorem consistent_run (database : DatabaseId) (rs : List Request)
    (hfew : rs.countP Request.creates < 2 ^ 64 - 1) :
    (∀ rs', rs' <+: rs →
      let s : Store := rs'.foldl serve { database }
      s.database = database ∧ s.Consistent ∧
      (Navigable Blueprint.name Blueprint.surrogate s.schemas ∧
        Navigable ValueType.name ValueType.surrogate s.valueTypes ∧
        Navigable Property.name Property.surrogate s.properties ∧
        Navigable StoredChronicle.fullName StoredChronicle.surrogate s.chronicles) ∧
      ((∀ r ∈ rs', ∀ b, r.schema? = some b → b.definitions.Sealed fun _ => True) →
        ∀ n b, s.schemas.get? n = some b → b.AtRest) ∧
      s.nextId.toNat = s.lastId.toNat + 1 ∧
      ∀ r e, (s.answer r).result = .error e → s.serve r = s) ∧
    (given { database } rs).map (·.toNat) = List.range' 1 (given { database } rs).length ∧
    ∀ x ∈ (rs.foldl serve { database }).surrogates, ∃ id ∈ given { database } rs, x.id? = some id := by
  have hempty := consistent_empty database
  refine ⟨fun rs' hrs' => ?_, ?_, ?_⟩
  · have hconsistent := hempty.run rs'
    have htables := hconsistent.tables
    have hcreations : rs'.countP Request.creates ≤ rs.countP Request.creates :=
      hrs'.sublist.countP_le
    obtain ⟨-, hlast⟩ := hempty.given_eq rs'
    have hgiven := length_given_le { database } rs'
    refine ⟨hempty.database_run rs', hconsistent,
      ⟨htables.schemas.navigable, htables.valueTypes.navigable, htables.properties.navigable,
        htables.chronicles.navigable⟩, fun hsealed n b hb => ?_, toNat_nextId ?_,
      fun r e he => hconsistent.serve_of_error he⟩
    · obtain ⟨horderly, hclosed⟩ := (sealed_empty database).run hsealed n b hb
      exact horderly.atRest hclosed
    · have hzero : ({ database } : Store).lastId.toNat = 0 := rfl
      omega
  · exact (hempty.given_eq rs).1
  · intro x hx
    exact (hempty.mem_given rs hx).resolve_left List.not_mem_nil

def sampleLength (id? : Option UInt64) (name : String) : Property where
  surrogate := ⟨⟨1⟩, .property, id?⟩
  name
  valueType := Builtin.textType

/-- A property is created, and cannot be created twice. After it has got another name its old one is
free, and after it has been deleted its id is not given again. -/
def sampleHistory : List Request := [
  .createProperty (sampleLength none "length"),
  .createProperty (sampleLength none "length"),
  .createSchema { surrogate := .pending ⟨1⟩ .schema, name := "road" },
  .updateProperty (sampleLength (some 1) "extent"),
  .insertProperty (sampleLength none "length"),
  .deleteProperty (.committed ⟨1⟩ .property 1),
  .createProperty (sampleLength none "extent")]

theorem consistent_run_sample :
    sampleHistory.countP Request.creates < 2 ^ 64 - 1 ∧
      given { database := ⟨1⟩ } sampleHistory = [1, 2, 3, 4] ∧
      (sampleHistory.foldl serve { database := ⟨1⟩ }).Consistent ∧
      (sampleHistory.foldl serve { database := ⟨1⟩ }).surrogates.map (·.id?) =
        [some 2, some 4, some 3] := by
  have hfew : sampleHistory.countP Request.creates < 2 ^ 64 - 1 := by decide
  obtain ⟨hmoments, -, -⟩ := consistent_run ⟨1⟩ sampleHistory hfew
  exact ⟨hfew, rfl, (hmoments sampleHistory List.prefix_rfl).2.1, rfl⟩

end Store

end ChronicleMeta
