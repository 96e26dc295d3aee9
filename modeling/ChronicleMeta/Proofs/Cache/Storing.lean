import ChronicleMeta.Proofs.Cache.Backing
import ChronicleMeta.Proofs.Cache.InPlace
import ChronicleMeta.Proofs.Cache.PropertyUses

/-!
What storing a chronicle leaves and gives: nothing changes where it fails, and what is stored is the
chronicle itself where the schema and the properties that it brings along are those that are shared.
-/

namespace ChronicleMeta.Cache

variable {c : Cache} {k ks : Identity} {x y : Chronicle}

/-- What the schema brings along is what the cache shares already. The schema has one property for
each identity, and the built-in properties are those themselves. -/
structure Consonant (c : Cache) (s : Schema) : Prop where
  schema : ∀ k e, s.surrogate.identity? = some k → c.schemas.get? k = some e → e.value.schema = s
  property : ∀ p ∈ s.properties, ∀ k e, p.countsAs k → c.properties.get? k = some e → e.value = p
  unique : ∀ p ∈ s.properties, ∀ q ∈ s.properties, ∀ k, p.countsAs k → q.countsAs k → p = q
  pinned : ∀ p ∈ s.properties, p.isPinned → Builtin.property? p.name = some p

/-- The copies of schemas that cached chronicles hold are told apart from the one given by where they
were made. -/
def Knows (c : Cache) (s : SharedSchema) : Prop :=
  ∀ t ∈ c.users, t.origin.isSome → t.origin = s.origin → t = s

/-- The properties that can be told of an identity where a schema is taken up: those of the schema. -/
private def Told (s : Schema) (k : Identity) (q : Property) : Prop :=
  ∀ p ∈ s.properties, p.countsAs k → q = p

/-- Where a schema can be taken up, each of its properties is shared as it is. -/
private theorem Consonant.stable {s copy : Schema} {sharing : Sharing} (h : c.Consonant s)
    (hs : s.definitions.Frozen)
    (hrun : (s.mapProperties share).run { properties := c.properties } = .ok (copy, sharing)) :
    ∀ p ∈ s.properties, Stable (Told s) p := by
  intro p hp
  obtain ⟨d, hd, -⟩ := Schema.mapProperties_eq_ok hrun
  obtain ⟨q, -, s₁, s₂, hshare⟩ := exists_step_of_mapM_eq_ok (hs.mapProperties hd).2 hp
  obtain ⟨-, hpin, -⟩ | ⟨k, hk, -⟩ := share_eq_ok hshare
  · exact .inl ⟨hpin, h.pinned p hp hpin⟩
  · obtain ⟨hpin, hidentity⟩ := Property.countsAs_iff.1 hk
    exact .inr ⟨hpin, k, hidentity, fun q hq hqk => h.unique p hp q hq k hk hqk,
      fun q hq => hq p hp hk⟩

/-- A schema is taken up as it is where it is consonant. -/
theorem Consonant.acquire {s : Schema} {shared : SharedSchema} {c' : Cache} (h : c.Consonant s)
    (hcounts : c.Counts) (hs : s.definitions.Frozen) (hks : s.surrogate.identity? = some ks)
    (ha : c.acquireSchema ks s = .ok (shared, c')) : shared.schema = s := by
  obtain ⟨n, hg, -⟩ | ⟨hnone, copy, sharing, hrun, -, -⟩ := acquireSchema_eq_ok ha
  · exact h.schema ks _ hks hg
  · have hbacked : Backed (fun k t => k = ks → t = s) (Told s) c c.users :=
      ⟨hcounts.tallied, fun k e he hk => h.schema k e (hk ▸ hks) he,
        fun k e he p hp hpk => h.property p hp k e hpk he⟩
    obtain ⟨shared', c₁, ha', hshared, -⟩ :=
      hbacked.acquire hks (fun _ => rfl) hs (h.stable hs hrun)
    obtain ⟨rfl, -⟩ := Prod.mk.inj (Except.ok.inj (ha.symm.trans ha'))
    exact hshared rfl

/-- A chronicle that has been placed is what both look-ups give next. -/
theorem Placed.found {c' : Cache} (h : Placed c k x c') (hu : c.chronicles.Unique)
    (hk : x.surrogate.identity? = some k) :
    (c'.lookUp x.surrogate).1 = some x ∧ (c'.lookUpName x.fullName).1 = some x := by
  obtain ⟨rest, hfront, -⟩ := Recency.push_eq hu c.capacity k x
  have hx : c'.chronicles.get? k = some x := by
    rw [h.chronicles, hfront, Recency.get?_cons, if_pos rfl]
  have hname : c'.names.get? x.fullName = some k := by rw [h.names, SortedMap.get?_insert_self]
  rw [lookUp_found, lookUpName_found, hk, hname]
  exact ⟨hx, hx⟩

/-- An equal chronicle is cached under the same identity, and its schema has one too. -/
theorem Indexed.identities_of_agrees (h : c.Indexed) (hknows : c.Knows x.schema)
    (hy : c.chronicles.get? k = some y) (hagrees : y.agrees x) :
    x.surrogate.identity? = some k ∧ ∃ ks, x.schema.schema.surrogate.identity? = some ks := by
  simp only [Chronicle.agrees, Bool.and_eq_true] at hagrees
  obtain ⟨⟨⟨⟨hsurrogate, -⟩, -⟩, -⟩, hschema⟩ := hagrees
  have hmem : y.schema ∈ c.users := List.mem_map.2 ⟨(k, y), Recency.mem_of_get? hy, rfl⟩
  refine ⟨(Surrogate.agrees_iff.1 hsurrogate).1 ▸ h.owned k y hy, ?_⟩
  obtain ⟨ks, hks, -⟩ := h.counts.tallied.shared y.schema hmem
  simp only [SharedSchema.agrees, Bool.or_eq_true, Bool.and_eq_true, decide_eq_true_eq] at hschema
  rcases hschema with ⟨hsome, horigin⟩ | hschema
  · rw [← hknows y.schema hmem hsome horigin]
    exact ⟨ks, hks⟩
  · simp only [Schema.agrees, Bool.and_eq_true] at hschema
    exact ⟨ks, (Surrogate.agrees_iff.1 hschema.1.1.1.1).1 ▸ hks⟩

/-- Nothing is stored where an equal chronicle is cached. -/
theorem store_of_agrees (hk : x.surrogate.identity? = some k)
    (hks : x.schema.schema.surrogate.identity? = some ks) (hy : c.chronicles.get? k = some y)
    (hagrees : y.agrees x) : c.store x = .ok (c.promoted k) none := by
  unfold Cache.store
  rw [Surrogate.identity_eq_ok_iff.2 hk, Surrogate.identity_eq_ok_iff.2 hks]
  simp only [lift_ok, ok_bind, hy, Option.any_some, hagrees, if_true]
  rfl

/-- After any requests to a cache, storing a chronicle is the same as storing it step by step, where
what is counted already is released, in any order, when a property cannot be shared: an error leaves
the cache as it was. A chronicle that is stored is what both look-ups give next, and it is the one
given, but for the copy of the schema that it holds, if the schema and the properties that it brings
along are those shared. There is nothing to store exactly if an equal chronicle is cached, which
becomes the latest used. -/
theorem store_run (capacity : Nat) (h : 0 < capacity) (rs : List Request) (x : Chronicle) :
    let c := (Cache.empty capacity h).run rs
    (∀ order : List Identity → List Identity, (∀ l, (order l).Perm l) →
      c.storeInPlace order x = c.store x) ∧
    (∀ f, (c.store x).result = .error f → (∃ e, f = .error e) ∧ (c.store x).state = c) ∧
    (∀ s, (c.store x).result = .ok (some s) →
      ((c.store x).state.lookUp x.surrogate).1 = some s ∧
      ((c.store x).state.lookUpName x.fullName).1 = some s ∧
      (x.schema.schema.Obtained → c.Consonant x.schema.schema →
        ∃ origin, s = { x with schema := { x.schema with origin } })) ∧
    (∀ k, x.surrogate.identity? = some k → (c.store x).result = .ok none →
      (c.store x).state = c.promoted k) ∧
    (c.Knows x.schema →
      ((c.store x).result = .ok none ↔ ∃ k y, c.chronicles.get? k = some y ∧ y.agrees x)) := by
  intro c
  have hc : c.Settled := settled_run capacity h rs
  have hcounts := hc.indexed.counts
  have hequal : c.Knows x.schema → (∃ k y, c.chronicles.get? k = some y ∧ y.agrees x) →
      (c.store x).result = .ok none := by
    rintro hknows ⟨k, y, hy, hagrees⟩
    obtain ⟨hk, ks, hks⟩ := hc.indexed.identities_of_agrees hknows hy hagrees
    rw [store_of_agrees hk hks hy hagrees]
    rfl
  refine ⟨fun order horder => hc.storeInPlace_eq horder x, ?_⟩
  rcases account_tallied.store hcounts.unique x fun _ _ _ hk ha => hcounts.tallied.acquire hk ha with
    ⟨e, hs, -⟩ | ⟨k, y, hk, hy, hagrees, hs⟩ |
      ⟨k, ks, shared, c₁, c', hk, hks, ha, hs, -, hchron, hcap, -, hnames, hstats⟩
  · rw [hs] at hequal ⊢
    refine ⟨fun f hf => ⟨⟨e, (Except.error.inj hf).symm⟩, rfl⟩, ?_, ?_,
      fun hknows => ⟨?_, hequal hknows⟩⟩
    · intro s hs
      cases hs
    · intro j _ hs
      cases hs
    · intro hs
      cases hs
  · rw [hs] at hequal ⊢
    refine ⟨?_, ?_, fun j hj _ => ?_, fun hknows => ⟨fun _ => ⟨k, y, hy, hagrees⟩, hequal hknows⟩⟩
    · intro f hf
      cases hf
    · intro s hs
      cases hs
    · obtain rfl : k = j := Option.some.inj (hk.symm.trans hj)
      rfl
  · have hplaced : Placed c k { x with schema := shared } c' := ⟨hchron, hnames, hcap, hstats⟩
    obtain ⟨hfound, hfoundName⟩ := hplaced.found hcounts.unique hk
    rw [hs] at hequal ⊢
    refine ⟨?_, fun s hs => ?_, ?_, fun hknows => ⟨?_, hequal hknows⟩⟩
    · intro f hf
      cases hf
    · obtain rfl := Option.some.inj (Except.ok.inj hs)
      refine ⟨hfound, hfoundName, fun hobtained hconsonant => ⟨shared.origin, ?_⟩⟩
      have hcontents := hconsonant.acquire hcounts hobtained.frozen hks ha
      change { x with schema := shared } =
        { x with schema := { schema := x.schema.schema, origin := shared.origin } }
      rw [← hcontents]
    · intro j _ hs
      cases hs
    · intro hs
      cases hs

def strayChronicle (id : UInt64) (name : String) : Chronicle where
  surrogate := .committed ⟨1⟩ .chronicle id
  name
  fullName := name
  schema := { schema := straySchema }

/-- A chronicle of a schema that has the stray property and, after it, a pending one. -/
def halfChronicle : Chronicle where
  surrogate := .committed ⟨1⟩ .chronicle 3
  name := "c"
  fullName := "c"
  schema := { schema := { straySchema with
    surrogate := .committed ⟨1⟩ .schema 2
    definitions := { attributes := { committed := {
      byNumber := .ofList [
        (1, { number := 1, property := some strayProperty, editable := false }),
        (2, {
          number := 2
          property := some { strayProperty with
            surrogate := .pending ⟨1⟩ .property, name := "draft" }
          editable := false })]
      byName := .ofList [("custom", 1), ("draft", 2)] } } } } }

/-- A cache that holds one chronicle refuses a chronicle with a pending property, stores another of the
schema that it knows, and has nothing to store for the one that it holds. -/
theorem store_run_sample :
    let c := (Cache.empty 2 Nat.two_pos).run [.store (strayChronicle 1 "a")]
    ((∃ f, (c.store halfChronicle).result = .error f) ∧ (c.store halfChronicle).state = c) ∧
    (∃ origin, (c.store (strayChronicle 2 "b")).result =
      .ok (some { strayChronicle 2 "b" with schema := { schema := straySchema, origin } })) ∧
    (c.store (strayChronicle 1 "a")).result = .ok none := by
  intro c
  have hproperties : straySchema.properties = [strayProperty] := by rfl
  have hschema : c.schemas.get? ⟨⟨1⟩, .schema, 1⟩ =
      some ⟨1, { schema := straySchema, origin := some (.cached 0) }⟩ := by rfl
  have hproperty : c.properties.get? ⟨.builtin, .property, 99⟩ = some ⟨1, strayProperty⟩ := by rfl
  have hstray : c.Consonant straySchema := by
    refine ⟨fun k e hk he => ?_, fun p hp k e hk he => ?_, fun p hp q hq k _ _ => ?_,
      fun p hp hpin => ?_⟩
    · obtain rfl := Option.some.inj hk
      obtain rfl := Option.some.inj (hschema.symm.trans he)
      rfl
    · obtain rfl : p = strayProperty := by simpa [hproperties] using hp
      obtain rfl := Option.some.inj (Property.countsAs_iff.1 hk).2
      obtain rfl := Option.some.inj (hproperty.symm.trans he)
      rfl
    · rw [hproperties, List.mem_singleton] at hp hq
      rw [hp, hq]
    · obtain rfl : p = strayProperty := by simpa [hproperties] using hp
      cases hpin
  have hknows : c.Knows { schema := straySchema } := by
    intro t _ hsome horigin
    rw [horigin] at hsome
    cases hsome
  refine ⟨?_, ?_, ?_⟩
  · have hfails : (c.store halfChronicle).result = .error (.error (.inConstruction .property)) := by
      rfl
    exact ⟨⟨_, hfails⟩, ((store_run 2 Nat.two_pos _ halfChronicle).2.1 _ hfails).2⟩
  · obtain ⟨s, hs⟩ : ∃ s, (c.store (strayChronicle 2 "b")).result = .ok (some s) := ⟨_, rfl⟩
    obtain ⟨-, -, hsame⟩ := (store_run 2 Nat.two_pos _ (strayChronicle 2 "b")).2.2.1 s hs
    obtain ⟨origin, rfl⟩ := hsame straySchema_obtained hstray
    exact ⟨origin, hs⟩
  · exact ((store_run 2 Nat.two_pos _ (strayChronicle 1 "a")).2.2.2.2 hknows).2
      ⟨⟨⟨1⟩, .chronicle, 1⟩, _, rfl, rfl⟩

end ChronicleMeta.Cache
