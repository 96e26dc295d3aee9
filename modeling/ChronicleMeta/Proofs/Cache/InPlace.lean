import ChronicleMeta.Proofs.Cache.Effect
import ChronicleMeta.Proofs.Cache.Sharing
import ChronicleMeta.Proofs.InPlace

/-!
Storing as steps that change the cache itself. Where a property cannot be shared, some are counted
already, and each of these is released again, in no order that could be relied on. That comes to
what storing does that changes the cache at once.
-/

namespace ChronicleMeta

open InPlace

namespace Cache

variable {c c' : Cache} {k : Identity} {m : SortedMap Identity (Counted Property)}
  {users : List SharedSchema}

/-- Takes a schema up in the cache itself. What is counted when a property cannot be shared is
released, in the order given. -/
def acquireInPlace (order : List Identity → List Identity) (c : Cache) (k : Identity)
    (schema : Schema) : Edited Cache SharedSchema :=
  match c.schemas.get? k with
  | some entry =>
    .ok { c with schemas := c.schemas.insert k { entry with uses := entry.uses + 1 } } entry.value
  | none =>
    let copied : InPlace Sharing Schema := schema.mapProperties shareProperty
    match copied.outcome { properties := c.properties } with
    | ⟨.error e, sharing⟩ =>
      .fail { c with properties := (order sharing.acquired).foldl releaseProperty sharing.properties } e
    | ⟨.ok schema, sharing⟩ =>
      let shared : SharedSchema := { schema, origin := some (.cached c.copies) }
      .ok { c with
        schemas := c.schemas.insert k ⟨1, shared⟩
        properties := sharing.properties
        copies := c.copies + 1 } shared

def storeInPlace (order : List Identity → List Identity) (c : Cache) (chronicle : Chronicle) :
    Outcome Failure Cache (Option Chronicle) :=
  match chronicle.surrogate.identity, chronicle.schema.schema.surrogate.identity with
  | .error e, _ => .fail c (.error e)
  | .ok _, .error e => .fail c (.error e)
  | .ok k, .ok schemaKey =>
    if (c.chronicles.get? k).any (·.agrees chronicle) then .ok (c.promoted k) none
    else
      ((c.acquireInPlace order schemaKey chronicle.schema.schema).mapError .error).andThen
        fun shared c => .ofExcept c do
          let stored := { chronicle with schema := shared }
          return (some stored, ← c.place k stored)

/-- One use less of an entry, which is not kept without one. -/
def Counted.released {α : Type} (e : Counted α) : Option (Counted α) :=
  if e.uses ≤ 1 then none else some { e with uses := e.uses - 1 }

theorem get?_releaseProperty (m : SortedMap Identity (Counted Property)) (j k : Identity) :
    (releaseProperty m k).get? j = if j = k then (m.get? k).bind Counted.released else m.get? j := by
  unfold releaseProperty
  split
  next hnone =>
    by_cases hj : j = k
    · rw [if_pos hj, hj, hnone]
      rfl
    · rw [if_neg hj]
  next e he =>
    rw [he, Option.bind_some, Counted.released]
    split_ifs with hone hj
    · rw [SortedMap.get?_erase, if_pos hj]
    · rw [SortedMap.get?_erase, if_neg hj]
    · rw [SortedMap.get?_insert, if_pos ‹_›]
    · rw [SortedMap.get?_insert, if_neg ‹_›]

theorem releaseProperty_comm (m : SortedMap Identity (Counted Property)) (j k : Identity) :
    releaseProperty (releaseProperty m j) k = releaseProperty (releaseProperty m k) j := by
  by_cases hjk : j = k
  · rw [hjk]
  · refine SortedMap.ext_get? fun i => ?_
    simp only [get?_releaseProperty, if_neg hjk, if_neg (Ne.symm hjk)]
    split_ifs with hk hj
    · exact absurd (hj.symm.trans hk) hjk
    · rfl
    · rfl
    · rfl

theorem foldl_releaseProperty_perm {ks ks' : List Identity} (h : ks.Perm ks') :
    ks.foldl releaseProperty m = ks'.foldl releaseProperty m :=
  h.foldl_eq' (fun j _ k _ m => releaseProperty_comm m j k) m

/-- Every property that is there is used. -/
def Used (m : SortedMap Identity (Counted Property)) : Prop :=
  ∀ k e, m.get? k = some e → 0 < e.uses

/-- What has been shared so far can be taken back, which gives the properties from before. -/
structure Undoable (m : SortedMap Identity (Counted Property)) (s : Sharing) : Prop where
  undo_eq : s.acquired.foldl releaseProperty s.properties = m
  used : Used s.properties

/-- A use more is taken back by a release. -/
theorem releaseProperty_insert (hm : Used m) (k : Identity) (p : Property) :
    releaseProperty (m.insert k ⟨((m.get? k).getD ⟨0, p⟩).uses + 1, ((m.get? k).getD ⟨0, p⟩).value⟩) k
      = m := by
  refine SortedMap.ext_get? fun j => ?_
  rw [get?_releaseProperty, SortedMap.get?_insert_self, Option.bind_some]
  by_cases hj : j = k
  · rw [if_pos hj, hj]
    cases hg : m.get? k with
    | none => rfl
    | some e =>
      have hpos := hm k e hg
      have hmany : ¬ e.uses + 1 ≤ 1 := by omega
      rw [Option.getD_some, Counted.released, if_neg hmany]
      rfl
  · rw [if_neg hj, SortedMap.get?_insert_of_ne _ hj]

/-- Sharing a property can be taken back, whether it succeeds or not. -/
theorem follows_share (m : SortedMap Identity (Counted Property)) (p : Property) :
    Follows (Undoable m) (shareProperty p) (share p) := by
  unfold share shareProperty
  split
  next builtin _ => exact follows_pure builtin
  next =>
    refine (follows_lift _).bind fun k => ⟨fun s => ?_, fun s hs => ?_⟩
    · change Outcome.commit (outcome (if k ∈ s.acquired then _ else _) s) =
        StateT.run (if k ∈ s.acquired then _ else _) s
      split_ifs <;> rfl
    · change Undoable m (outcome (if k ∈ s.acquired then _ else _) s).state
      split_ifs with hk
      · exact hs
      · refine ⟨?_, fun j e he => ?_⟩
        · refine Eq.trans ?_ hs.undo_eq
          exact congrArg (s.acquired.foldl releaseProperty) (releaseProperty_insert hs.used k p)
        · change (s.properties.insert k _).get? j = some e at he
          rw [SortedMap.get?_insert] at he
          split_ifs at he with hj
          · rw [← Option.some.inj he]
            exact Nat.succ_pos _
          · exact hs.used j e he

/-- Taking a schema up in the cache itself is taking it up at once. -/
theorem acquireInPlace_eq {order : List Identity → List Identity} (horder : ∀ l, (order l).Perm l)
    (hc : Used c.properties) (k : Identity) (schema : Schema) :
    c.acquireInPlace order k schema = .ofExcept c (c.acquireSchema k schema) := by
  unfold acquireInPlace acquireSchema
  cases c.schemas.get? k with
  | some entry => rfl
  | none =>
    have hfollows := follows_mapProperties (follows_share c.properties) schema
    have hcommit := hfollows.commit_eq { properties := c.properties }
    have hundo := hfollows.keeps { properties := c.properties } ⟨rfl, hc⟩
    dsimp only
    generalize (schema.mapProperties shareProperty : InPlace Sharing Schema).outcome
      { properties := c.properties } = copied at hcommit hundo
    rw [← hcommit]
    obtain ⟨result, sharing⟩ := copied
    cases result with
    | error e =>
      have hback : (order sharing.acquired).foldl releaseProperty sharing.properties =
          c.properties := (foldl_releaseProperty_perm (horder _)).trans hundo.undo_eq
      dsimp only
      rw [hback]
      rfl
    | ok copy => rfl

theorem Used.release (hm : Used m) (k : Identity) : Used (releaseProperty m k) := by
  intro j e he
  rw [get?_releaseProperty] at he
  split_ifs at he
  · obtain ⟨e', -, he⟩ := Option.bind_eq_some_iff.1 he
    unfold Counted.released at he
    split_ifs at he
    rw [← Option.some.inj he]
    dsimp only
    omega
  · exact hm j e he

theorem Used.releaseAll (hm : Used m) (ks : List Identity) : Used (ks.foldl releaseProperty m) := by
  induction ks generalizing m with
  | nil => exact hm
  | cons k ks ih => exact ih (hm.release k)

/-- The schemas are counted by their users, and the properties are used. -/
def InUse (c : Cache) (users : List SharedSchema) : Prop := Tallied c users ∧ Used c.properties

theorem account_inUse : Account InUse where
  frame hs hp hc h := ⟨account_tallied.frame hs hp hc h.1, hp ▸ h.2⟩
  perm hp h := ⟨account_tallied.perm hp h.1, h.2⟩
  release := by
    rintro c s users ⟨ht, hused⟩
    obtain ⟨c', hc, ht'⟩ := ht.release
    refine ⟨c', hc, ht', ?_⟩
    obtain ⟨k, -, ⟨-, rfl⟩ | ⟨t, -, rfl⟩ | ⟨n, t, -, rfl⟩⟩ := releaseSchema_eq_ok hc
    · exact hused
    · exact hused.releaseAll _
    · exact hused

theorem InUse.acquire {schema : Schema} {shared : SharedSchema} (h : InUse c users)
    (hk : schema.surrogate.identity? = some k) (ha : c.acquireSchema k schema = .ok (shared, c')) :
    InUse c' (shared :: users) := by
  refine ⟨h.1.acquire hk ha, ?_⟩
  obtain ⟨n, -, rfl⟩ | ⟨-, copy, sharing, hcopy, -, rfl⟩ := acquireSchema_eq_ok ha
  · exact h.2
  · have hfollows := follows_mapProperties (follows_share c.properties) schema
    have hundo := hfollows.keeps { properties := c.properties } ⟨rfl, h.2⟩
    have hcommit := (hfollows.commit_eq { properties := c.properties }).trans hcopy
    rw [(Outcome.commit_eq_ok_iff.1 hcommit).2] at hundo
    exact hundo.used

/-- The cache is indexed, and its properties are used. -/
structure Settled (c : Cache) : Prop where
  indexed : c.Indexed
  used : Used c.properties

theorem Settled.serve (h : c.Settled) (r : Request) : (c.serve r).state.Settled := by
  have hcounts := h.indexed.counts
  obtain ⟨-, huse, -⟩ := account_inUse.serve hcounts.unique ⟨hcounts.tallied, h.used⟩ r
    (fun _ => ⟨tallied_nil rfl, fun k e he => by cases he⟩)
    fun chronicle _ k shared c₁ hk ha => InUse.acquire ⟨hcounts.tallied, h.used⟩ hk ha
  exact ⟨h.indexed.serve r, huse.2⟩

theorem settled_run (capacity : Nat) (h : 0 < capacity) (rs : List Request) :
    ((Cache.empty capacity h).run rs).Settled :=
  run_invariant (P := Settled) (fun _ r hc => hc.serve r)
    ⟨indexed_empty capacity h, fun k e he => by cases he⟩ rs

/-- A chronicle whose schema has been taken up can be placed. -/
theorem Settled.exists_place (h : c.Settled) (k : Identity) {x : Chronicle} {ks : Identity}
    {shared : SharedSchema} (hks : x.schema.schema.surrogate.identity? = some ks)
    (ha : c.acquireSchema ks x.schema.schema = .ok (shared, c')) :
    ∃ c₁, c'.place k { x with schema := shared } = .ok c₁ := by
  have hcounts := h.indexed.counts
  obtain ⟨hchron, -⟩ := acquireSchema_frame ha
  have htallied : Tallied c' (shared :: c'.users) := by
    rw [users, hchron]
    exact hcounts.tallied.acquire hks ha
  obtain ⟨c₁, hc₁, -⟩ := account_tallied.place (hchron ▸ hcounts.unique) k
    { x with schema := shared } htallied
  exact ⟨c₁, hc₁⟩

/-- Storing in the cache itself is storing at once. -/
theorem Settled.storeInPlace_eq (h : c.Settled) {order : List Identity → List Identity}
    (horder : ∀ l, (order l).Perm l) (x : Chronicle) : c.storeInPlace order x = c.store x := by
  unfold storeInPlace Cache.store
  cases x.surrogate.identity with
  | error e => rfl
  | ok k =>
    cases hks : x.schema.schema.surrogate.identity with
    | error e => rfl
    | ok ks =>
      simp only [lift_ok, ok_bind]
      split_ifs with hknown
      · rfl
      · rw [acquireInPlace_eq horder h.used]
        cases hacquire : c.acquireSchema ks x.schema.schema with
        | error e => rfl
        | ok r =>
          obtain ⟨shared, c₁⟩ := r
          obtain ⟨c', hc'⟩ := h.exists_place k (Surrogate.identity_eq_ok_iff.1 hks) hacquire
          simp only [lift_ok, ok_bind, hc', lift_ok_fault, Outcome.ofExcept, Outcome.ok,
            Outcome.mapError, Except.mapError, Outcome.andThen]
          rfl

end Cache

end ChronicleMeta
