import ChronicleMeta.Proofs.Chain
import ChronicleMeta.Proofs.Store.Sound
import Mathlib.Data.List.Chain

/-!
References between stored objects. The base chain of every stored schema ends, and all of it is
stored, and so is the schema of every chronicle. A schema is stored only after its chain has been
followed, and deleted only while nothing refers to it.
-/

namespace ChronicleMeta.Store

/-- The schema of the name is stored, and so are its base, the base of the base and so on, of which
the last has no base. -/
inductive Grounded (s : Store) : String → Prop
  | intro {n : String} {b : Blueprint} (hb : s.schemas.get? n = some b)
      (hbase : ∀ m, b.base = some m → s.Grounded m) : s.Grounded n

/-- The stored schema of the first name has the second name as its base. -/
def Extends (s : Store) (n m : String) : Prop := ∃ b, s.schemas.get? n = some b ∧ b.base = some m

/-- A store whose references lead to stored objects. -/
structure Forest (s : Store) : Prop where
  schemas : Registered s.database .schema s.lastId Blueprint.name Blueprint.surrogate s.schemas
  grounded : ∀ n b, s.schemas.get? n = some b → s.Grounded n
  used : ∀ n c, s.chronicles.get? n = some c →
    ∃ m b, s.schemas.get? m = some b ∧ b.surrogate.agrees c.schema

theorem forest_empty (database : DatabaseId) : Forest { database } where
  schemas := registered_empty
  grounded := by simp
  used := by simp

variable {s s' s'' : Store} {n k : String} {b b' : Blueprint}

theorem Grounded.stored (h : s.Grounded n) : ∃ b, s.schemas.get? n = some b := by
  obtain ⟨hb, -⟩ := h
  exact ⟨_, hb⟩

theorem Grounded.extends (h : s.Grounded n) {m : String} (hm : s.Extends n m) : s.Grounded m := by
  obtain ⟨hb, hbase⟩ := h
  obtain ⟨b', hb', hm⟩ := hm
  obtain rfl := Option.some.inj (hb.symm.trans hb')
  exact hbase m hm

/-- No chain leads back to where it begins. -/
theorem Grounded.not_transGen (h : s.Grounded n) : ¬Relation.TransGen s.Extends n n := by
  induction h with
  | @intro n b hb hbase ih =>
    intro hloop
    obtain ⟨m, hm, hrest⟩ := Relation.TransGen.head'_iff.1 hloop
    obtain ⟨b', hb', hbase'⟩ := id hm
    obtain rfl := Option.some.inj (hb.symm.trans hb')
    -- the loop through `n` is one through its base as well
    exact ih m hbase' (Relation.TransGen.tail' hrest hm)

theorem Grounded.of_isChain {l : List String} (h : s.Grounded n) (hl : (n :: l).IsChain s.Extends) :
    ∀ m ∈ n :: l, s.Grounded m := by
  induction l generalizing n with
  | nil => simpa using h
  | cons m l ih =>
    obtain ⟨hm, hl⟩ := List.isChain_cons_cons.1 hl
    exact List.forall_mem_cons.2 ⟨h, ih (h.extends hm) hl⟩

theorem Grounded.nodup {l : List String} (h : s.Grounded n) (hl : (n :: l).IsChain s.Extends) :
    (n :: l).Nodup := by
  have hpairs := List.isChain_iff_pairwise.1 (hl.imp fun _ _ => Relation.TransGen.single)
  refine hpairs.imp_of_mem fun hm _ hpath heq => ?_
  rw [← heq] at hpath
  exact (h.of_isChain hl _ hm).not_transGen hpath

/-- A chain ends also where its schemas have other contents but the same bases, or chains that end. -/
theorem Grounded.mono (h : s.Grounded n) (hs : ∀ n b, s.schemas.get? n = some b →
    s'.Grounded n ∨ ∃ b', s'.schemas.get? n = some b' ∧ b'.base = b.base) : s'.Grounded n := by
  induction h with
  | @intro n b hb _ ih =>
    obtain hn | ⟨b', hb', hbase⟩ := hs n b hb
    · exact hn
    · exact .intro hb' fun m hm => ih m (hbase ▸ hm)

/-- A chain that does not meet a name ends also where this is not stored. -/
theorem Grounded.avoid (h : s.Grounded n) (hne : n ≠ k)
    (hbase : ∀ n b, n ≠ k → s.schemas.get? n = some b → b.base ≠ some k)
    (hs : ∀ n, n ≠ k → s'.schemas.get? n = s.schemas.get? n) : s'.Grounded n := by
  induction h with
  | @intro n b hb _ ih =>
    refine .intro ((hs n hne).trans hb) fun m hm => ih m hm ?_
    rintro rfl
    exact hbase n b hne hb hm

/-- A chain that has been followed ends also where the schemas met before it are others. -/
theorem grounded_of_walk {maxDepth room : Nat} {start : String} {visited : List String}
    {walked chain : List Blueprint} {next : Option String}
    (h : Blueprint.walk s.source maxDepth start room visited walked next = .ok chain)
    (hother : ∀ n, n ∉ visited → s'.schemas.get? n = s.schemas.get? n) :
    ∀ m, next = some m → s'.Grounded m := by
  induction room generalizing visited walked next with
  | zero =>
    obtain ⟨rfl, -⟩ | ⟨name, base, room', -, hroom, -⟩ := Blueprint.walk_eq_ok_iff.1 h
    · simp
    · cases hroom
  | succ room ih =>
    obtain ⟨rfl, -⟩ | ⟨name, base, room', rfl, hroom, hnew, hbase, hrest⟩ :=
      Blueprint.walk_eq_ok_iff.1 h
    · simp
    · cases hroom
      rintro m ⟨⟩
      refine .intro ((hother name hnew).trans (Except.ok.inj hbase)) (ih hrest fun n hn => ?_)
      exact hother n fun hvisited => hn (List.mem_cons_of_mem _ hvisited)

/-- What a change of the store keeps of the schemas: each of them is one there was, perhaps with
other contents, or has got an id that had not been assigned. -/
structure Advances (s s' : Store) : Prop where
  database_eq : s'.database = s.database
  lastId_le : s.lastId.toNat ≤ s'.lastId.toNat
  schemas : ∀ n b', s'.schemas.get? n = some b' →
    (∃ b, s.schemas.get? n = some b ∧ b'.surrogate = b.surrogate) ∨
      ∃ id, s.lastId.toNat < id.toNat ∧ b'.surrogate = .committed s.database .schema id

theorem advances_of_schemas_eq (hdatabase : s'.database = s.database)
    (hle : s.lastId.toNat ≤ s'.lastId.toNat) (hschemas : s'.schemas = s.schemas) : s.Advances s' :=
  ⟨hdatabase, hle, fun _ b hb => .inl ⟨b, hschemas ▸ hb, rfl⟩⟩

theorem advances_refl (s : Store) : s.Advances s := advances_of_schemas_eq rfl (Nat.le_refl _) rfl

/-- A schema stored after its chain has been followed leaves all chains to end. -/
theorem Forest.grounded_put (h : s.Forest) {maxDepth : Nat} {chain : List Blueprint}
    (hchain : b.chain s.source maxDepth = .ok chain) (hput : s'.schemas.get? b.name = some b')
    (hbase : b'.base = b.base)
    (hother : ∀ n, n ≠ b.name → s'.schemas.get? n = s.schemas.get? n) :
    ∀ n c, s'.schemas.get? n = some c → s'.Grounded n := by
  have hnew : s'.Grounded b.name := by
    refine .intro hput (hbase ▸ grounded_of_walk hchain fun n hn => hother n ?_)
    exact fun heq => hn (List.mem_singleton.2 heq)
  intro n c hc
  by_cases hname : n = b.name
  · exact hname ▸ hnew
  · refine (h.grounded n c ((hother n hname).symm.trans hc)).mono fun m d hd => ?_
    by_cases hm : m = b.name
    · exact .inl (hm ▸ hnew)
    · exact .inr ⟨d, (hother m hm).trans hd, rfl⟩

theorem Forest.createSchema (h : s.Forest) {maxDepth : Nat} {chain : List Blueprint}
    (hchain : b.chain s.source maxDepth = .ok chain) :
    (s.createSchema b).state.Forest ∧ s.Advances (s.createSchema b).state := by
  obtain ⟨e, hs⟩ | ⟨hfree, hlt, hs⟩ := createSchema_cases s b
  · rw [hs]
    exact ⟨h, advances_refl s⟩
  · rw [hs]
    have hregistered := h.schemas.insert_new
      (a := Blueprint.close { b with surrogate := .committed s.database .schema s.nextId }) rfl hlt
    refine ⟨⟨hregistered, h.grounded_put hchain (SortedMap.get?_insert_self ..) rfl fun n hn =>
      SortedMap.get?_insert_of_ne _ hn _, fun n c hc => ?_⟩, rfl, Nat.le_of_lt hlt, fun n b' hb' => ?_⟩
    · obtain ⟨m, b₀, hb₀, hagrees⟩ := h.used n c hc
      exact ⟨m, b₀, SortedMap.get?_insert_of_free _ hfree hb₀, hagrees⟩
    · simp only [Outcome.ok, SortedMap.get?_insert] at hb'
      split_ifs at hb' with hn
      · obtain rfl := Option.some.inj hb'
        exact .inr ⟨s.nextId, hlt, rfl⟩
      · exact .inl ⟨b', hb', rfl⟩

/-- A session of the store: its schema has not been stored, or it has got an id, and a schema that
is stored under this id has the name of the session. -/
def Tracks (s : Store) (b : Blueprint) : Prop :=
  b.surrogate = .pending s.database .schema ∨
    ∃ id, id.toNat ≤ s.lastId.toNat ∧ b.surrogate = .committed s.database .schema id ∧
      ∀ n b', s.schemas.get? n = some b' → b'.surrogate = b.surrogate → n = b.name

theorem Tracks.of_eq (h : s.Tracks b) (hsurrogate : b'.surrogate = b.surrogate)
    (hname : b'.name = b.name) : s.Tracks b' := by
  unfold Tracks
  rw [hsurrogate, hname]
  exact h

theorem Tracks.advance (h : s.Tracks b) (hs : s.Advances s') : s'.Tracks b := by
  obtain hpending | ⟨id, hle, hsurrogate, hname⟩ := h
  · exact .inl (hs.database_eq ▸ hpending)
  · refine .inr ⟨id, Nat.le_trans hle hs.lastId_le, hs.database_eq ▸ hsurrogate, fun n b' hb' heq => ?_⟩
    obtain ⟨b₀, hb₀, hold⟩ | ⟨id', hlt, hnew⟩ := hs.schemas n b' hb'
    · exact hname n b₀ hb₀ (hold.symm.trans heq)
    · obtain rfl : id' = id := by simpa [Surrogate.committed, hnew, hsurrogate] using heq
      omega

theorem Forest.tracks_stored (h : s.Forest) (hb : s.schemas.get? n = some b) : s.Tracks b := by
  obtain ⟨id, hid, hle⟩ := h.schemas.owned n b hb
  refine .inr ⟨id, hle, hid, fun m b' hb' heq => ?_⟩
  rw [h.schemas.name_eq n b hb, h.schemas.unique m n b' b hb' hb heq]

/-- The session of a new schema goes on with the schema under the id that it has got. -/
theorem Forest.tracks_created (h : s.Forest) (ht : s.Tracks b) {id : UInt64}
    (hid : (s.createSchema b).result = .ok id) (hb' : b.upgrade id = .ok b') :
    (s.createSchema b).state.Tracks b'.close := by
  obtain ⟨e, hs⟩ | ⟨-, hlt, hs⟩ := createSchema_cases s b
  · rw [hs] at hid
    cases hid
  · rw [hs] at hid ⊢
    obtain rfl := Except.ok.inj hid
    obtain ⟨y, hy, rfl⟩ := map_eq_ok_iff.1 hb'
    obtain ⟨hnone, -, rfl⟩ := Surrogate.upgrade_eq_ok hy
    have hpending : b.surrogate = .pending s.database .schema := by
      obtain hpending | ⟨id, -, hsurrogate, -⟩ := ht
      · exact hpending
      · rw [hsurrogate] at hnone
        cases hnone
    refine .inr ⟨s.nextId, Nat.le_refl _, by rw [hpending]; rfl, fun n c hc heq => ?_⟩
    simp only [Outcome.ok, SortedMap.get?_insert] at hc
    split_ifs at hc with hn
    · exact hn
    · -- no schema that was stored before has the new id
      obtain ⟨id, hold, hle⟩ := h.schemas.owned n c hc
      have hnew : id = s.nextId := by
        simpa [Blueprint.close, hold, hpending, Surrogate.committed, Surrogate.pending] using heq
      rw [hnew] at hle
      omega

/-- A session cannot give the stored schema another name. -/
theorem Forest.name_of_loadSchema (h : s.Forest) (ht : s.Tracks b)
    (hb' : s.loadSchema b.surrogate = some b') : b'.name = b.name := by
  obtain ⟨hget, hagrees⟩ := h.schemas.findValue?_eq_some_iff.1 hb'
  obtain ⟨heq, k, hk⟩ := Surrogate.agrees_iff.1 hagrees
  obtain hpending | ⟨id, -, -, hname⟩ := ht
  · rw [hpending] at hk
    cases hk
  · exact hname _ _ hget heq

/-- So the schema stays where it was. -/
theorem Forest.updateSchema (h : s.Forest) (ht : s.Tracks b) {maxDepth : Nat} {chain : List Blueprint}
    (hchain : b.chain s.source maxDepth = .ok chain) :
    (s.updateSchema b).state.Forest ∧ s.Advances (s.updateSchema b).state := by
  obtain ⟨e, hs⟩ | ⟨old, hold, -, hs⟩ := updateSchema_cases s b
  · rw [hs]
    exact ⟨h, advances_refl s⟩
  · rw [hs]
    obtain ⟨hget, hagrees⟩ := h.schemas.findValue?_eq_some_iff.1 hold
    have heq := (Surrogate.agrees_iff.1 hagrees).1
    have hname := h.name_of_loadSchema ht hold
    have hregistered := h.schemas.replace (a := b.close) hget heq.symm
    rw [hname] at hget hregistered ⊢
    have hself : ((s.schemas.erase b.name).insert b.name b.close).get? b.name = some b.close :=
      SortedMap.get?_insert_self ..
    have hother : ∀ n, n ≠ b.name →
        ((s.schemas.erase b.name).insert b.name b.close).get? n = s.schemas.get? n := by
      intro n hn
      rw [SortedMap.get?_insert_of_ne _ hn, SortedMap.get?_erase, if_neg hn]
    refine ⟨⟨hregistered, h.grounded_put hchain hself rfl hother, fun n c hc => ?_⟩, rfl, Nat.le_refl _,
      fun n b' hb' => .inl ?_⟩
    · obtain ⟨m, b₀, hb₀, hused⟩ := h.used n c hc
      by_cases hm : m = b.name
      · rw [hm, hget] at hb₀
        obtain rfl := Option.some.inj hb₀
        exact ⟨b.name, b.close, hself, heq ▸ hused⟩
      · exact ⟨m, b₀, (hother m hm).trans hb₀, hused⟩
    · by_cases hn : n = b.name
      · rw [hn] at hb' ⊢
        obtain rfl := Option.some.inj (hself.symm.trans hb')
        exact ⟨old, hget, heq.symm⟩
      · exact ⟨b', (hother n hn).symm.trans hb', rfl⟩

/-- A stored schema is found by its surrogate, and so it is deleted. -/
theorem deleteSchema_eq
    (h : Registered s.database .schema s.lastId Blueprint.name Blueprint.surrogate s.schemas)
    (hb : s.schemas.get? n = some b) :
    s.deleteSchema b.surrogate = .ok { s with schemas := s.schemas.erase n } () := by
  obtain ⟨id, hid, -⟩ := h.owned n b hb
  have hname := h.name_eq n b hb
  have hagrees : b.surrogate.agrees b.surrogate :=
    Surrogate.agrees_iff.2 ⟨rfl, ⟨_, _, _⟩, by rw [hid]; rfl⟩
  have hfind : s.loadSchema b.surrogate = some b :=
    h.findValue?_eq_some_iff.2 ⟨hname ▸ hb, hagrees⟩
  unfold Store.deleteSchema
  rw [hfind, ← hname]
  rfl

/-- A schema that is no base and that no chronicle uses can be deleted. -/
theorem Forest.deleteSchema (h : s.Forest) (hb : s.schemas.get? n = some b)
    (hbase : ∀ m c, m ≠ n → s.schemas.get? m = some c → c.base ≠ some n)
    (hused : ∀ m c, s.chronicles.get? m = some c → b.surrogate.agrees c.schema = false) :
    (s.deleteSchema b.surrogate).state.Forest ∧ s.Advances (s.deleteSchema b.surrogate).state := by
  have hother : ∀ m, m ≠ n → (s.schemas.erase n).get? m = s.schemas.get? m := by
    intro m hm
    rw [SortedMap.get?_erase, if_neg hm]
  have hrest : ∀ m c, (s.schemas.erase n).get? m = some c → m ≠ n ∧ s.schemas.get? m = some c := by
    intro m c hc
    rw [SortedMap.get?_erase] at hc
    split_ifs at hc with hm
    exact ⟨hm, hc⟩
  rw [deleteSchema_eq h.schemas hb]
  refine ⟨⟨h.schemas.erase n, fun m c hc => ?_, fun m c hc => ?_⟩, rfl, Nat.le_refl _, fun m c hc => ?_⟩
  · obtain ⟨hne, hc⟩ := hrest m c hc
    exact (h.grounded m c hc).avoid hne hbase hother
  · obtain ⟨m', d, hd, hagrees⟩ := h.used m c hc
    have hne : m' ≠ n := by
      rintro rfl
      obtain rfl := Option.some.inj (hb.symm.trans hd)
      rw [hused m c hc] at hagrees
      cases hagrees
    exact ⟨m', d, (hother m' hne).trans hd, hagrees⟩
  · exact .inl ⟨c, (hrest m c hc).2, rfl⟩

theorem Forest.of_schemas_eq (h : s.Forest) (hdatabase : s'.database = s.database)
    (hle : s.lastId.toNat ≤ s'.lastId.toNat) (hschemas : s'.schemas = s.schemas)
    (hused : ∀ n c, s'.chronicles.get? n = some c → s.chronicles.get? n = some c ∨
      ∃ m b, s.schemas.get? m = some b ∧ c.schema = b.surrogate) : s'.Forest := by
  refine ⟨?_, fun n b hb => ?_, fun n c hc => ?_⟩
  · rw [hdatabase, hschemas]
    exact h.schemas.mono hle
  · exact (h.grounded n b (hschemas ▸ hb)).mono fun m c hc => .inr ⟨c, hschemas ▸ hc, rfl⟩
  · rw [hschemas]
    obtain hc | ⟨m, b, hb, hschema⟩ := hused n c hc
    · exact h.used n c hc
    · obtain ⟨id, hid, -⟩ := h.schemas.owned m b hb
      exact ⟨m, b, hb, Surrogate.agrees_iff.2 ⟨hschema.symm, ⟨_, _, _⟩, by rw [hschema, hid]; rfl⟩⟩

theorem Forest.createProperty (h : s.Forest) (p : Property) :
    (s.createProperty p).state.Forest ∧ s.Advances (s.createProperty p).state := by
  obtain ⟨e, hs⟩ | ⟨-, hlt, hs⟩ := createProperty_cases s p
  · rw [hs]
    exact ⟨h, advances_refl s⟩
  · rw [hs]
    have hle := Nat.le_of_lt hlt
    exact ⟨h.of_schemas_eq rfl hle rfl fun _ _ => .inl, advances_of_schemas_eq rfl hle rfl⟩

/-- A property is replaced within the definitions of the schemas, which keep their bases. -/
theorem Forest.updateProperty (h : s.Forest) (p : Property) :
    (s.updateProperty p).state.Forest ∧ s.Advances (s.updateProperty p).state := by
  obtain ⟨e, hs⟩ | ⟨old, schemas, -, -, -, hschemas, hs⟩ := updateProperty_cases s p
  · rw [hs]
    exact ⟨h, advances_refl s⟩
  · rw [hs]
    obtain ⟨hfrom, hto⟩ := get?_rewriteSchemas hschemas
    have hsame : ∀ n b, s.schemas.get? n = some b →
        ∃ b', schemas.get? n = some b' ∧ b'.base = b.base ∧ b'.surrogate = b.surrogate := by
      intro n b hb
      obtain ⟨b', hb'⟩ := SortedMap.contains_iff.1 (hto n (SortedMap.contains_iff.2 ⟨b, hb⟩))
      obtain ⟨b₀, hb₀, hrun⟩ := hfrom n b' hb'
      obtain rfl := Option.some.inj (hb.symm.trans hb₀)
      have heq := mapProperties_eq_ok hrun
      exact ⟨b', hb', by rw [heq], by rw [heq]⟩
    have hold : ∀ n b', schemas.get? n = some b' →
        ∃ b, s.schemas.get? n = some b ∧ b'.name = b.name ∧ b'.surrogate = b.surrogate := by
      intro n b' hb'
      obtain ⟨b, hb, hname, hsurrogate, -⟩ := rewriteSchemas_eq_ok hschemas hb'
      exact ⟨b, hb, hname, hsurrogate⟩
    refine ⟨⟨h.schemas.of_forall hold, fun n b' hb' => ?_, fun n c hc => ?_⟩, rfl, Nat.le_refl _,
      fun n b' hb' => ?_⟩
    · obtain ⟨b, hb, -⟩ := hold n b' hb'
      refine (h.grounded n b hb).mono fun m c hc => .inr ?_
      obtain ⟨c', hc', hbase, -⟩ := hsame m c hc
      exact ⟨c', hc', hbase⟩
    · obtain ⟨m, b, hb, hagrees⟩ := h.used n c hc
      obtain ⟨b', hb', -, hsurrogate⟩ := hsame m b hb
      exact ⟨m, b', hb', hsurrogate ▸ hagrees⟩
    · obtain ⟨b, hb, -, hsurrogate⟩ := hold n b' hb'
      exact .inl ⟨b, hb, hsurrogate⟩

theorem Forest.deleteProperty (h : s.Forest) (x : Surrogate) :
    (s.deleteProperty x).state.Forest ∧ s.Advances (s.deleteProperty x).state := by
  unfold Store.deleteProperty
  cases s.findProperty? x with
  | none => exact ⟨h, advances_refl s⟩
  | some p =>
    exact ⟨h.of_schemas_eq rfl (Nat.le_refl _) rfl fun _ _ => .inl,
      advances_of_schemas_eq rfl (Nat.le_refl _) rfl⟩

theorem Forest.createChronicle (h : s.Forest) {c : StoredChronicle}
    (hb : s.schemas.get? n = some b) (hc : c.schema = b.surrogate) :
    (s.createChronicle c).state.Forest ∧ s.Advances (s.createChronicle c).state := by
  obtain ⟨e, hs⟩ | ⟨-, hlt, hs⟩ := createChronicle_cases s c
  · rw [hs]
    exact ⟨h, advances_refl s⟩
  · rw [hs]
    have hle := Nat.le_of_lt hlt
    refine ⟨h.of_schemas_eq rfl hle rfl fun m c' hc' => ?_, advances_of_schemas_eq rfl hle rfl⟩
    simp only [Outcome.ok, SortedMap.get?_insert] at hc'
    split_ifs at hc'
    · obtain rfl := Option.some.inj hc'
      exact .inr ⟨n, b, hb, hc⟩
    · exact .inl hc'

theorem Forest.deleteChronicle (h : s.Forest) (x : Surrogate) :
    (s.deleteChronicle x).state.Forest ∧ s.Advances (s.deleteChronicle x).state := by
  unfold Store.deleteChronicle
  cases s.chronicles.findValue? (·.surrogate.agrees x) with
  | none => exact ⟨h, advances_refl s⟩
  | some c =>
    refine ⟨h.of_schemas_eq rfl (Nat.le_refl _) rfl fun n c' hc' => .inl ?_,
      advances_of_schemas_eq rfl (Nat.le_refl _) rfl⟩
    simp only [Outcome.ofExcept, Outcome.ok, pure, Except.pure, SortedMap.get?_erase] at hc'
    split_ifs at hc'
    exact hc'

end ChronicleMeta.Store
