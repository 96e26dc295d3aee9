import ChronicleMeta.Proofs.Database.Changes
import ChronicleMeta.Proofs.Database.Providing
import ChronicleMeta.Proofs.Database.Saving
import ChronicleMeta.Proofs.Runs

/-!
Properties in stored schemas and the stored properties. A property that is replaced is replaced in the
stored schemas, and one that a stored schema refers to is not deleted; but the sessions that have been
begun before are not looked at, and are saved with the properties that they have.
-/

namespace ChronicleMeta

variable {P Q : Property → Prop}

theorem Builtin.isBuiltin_of_mem : ∀ p ∈ Builtin.properties, p.isBuiltin := by decide

theorem Builtin.isBuiltin_of_ofAttribute? {n : UInt32} {p : Property}
    (h : Builtin.ofAttribute? n = some p) : p.isBuiltin := by
  unfold Builtin.ofAttribute? at h
  split_ifs at h <;> rw [← Option.some.inj h] <;> rfl

namespace Attribute

/-- The property that the attribute refers to, if there is one, has `P`. -/
def RefersTo (P : Property → Prop) (a : Attribute) : Prop := ∀ p, a.property = some p → P p

theorem steady_refersTo (hbuiltin : ∀ p : Property, p.isBuiltin → P p) : Steady (RefersTo P) where
  removal n := by simp [RefersTo]
  definition n p v a hp h := by
    obtain ⟨-, rfl⟩ := ofProperty_eq_ok_iff.1 h
    rintro _ ⟨⟩
    exact hbuiltin p (Builtin.isBuiltin_of_ofAttribute? hp)
  editable _ _ h := h
  value a v b ha hb := by
    obtain ⟨-, -, rfl⟩ := setValue_eq_ok_iff.1 hb
    exact ha

end Attribute

theorem Blueprint.Orderly.mentions {b : Blueprint} (h : b.Orderly (Attribute.RefersTo P)) :
    ∀ p ∈ b.properties, P p := by
  intro p hp
  obtain ⟨a, ha, hp⟩ := List.mem_filterMap.1 hp
  exact h.definitions.holds a ha p hp

namespace Store

variable {E : Property → Prop} {s : Store}

theorem Sealed.mentions (h : s.Sealed (Attribute.RefersTo P)) : s.Mentions P :=
  fun n b hb => (h n b hb).1.mentions

/-- Every property in a stored schema is a built-in one or the stored one of its surrogate. -/
def UpToDate (s : Store) : Prop :=
  s.Mentions fun p => p.isBuiltin = false → s.findProperty? p.surrogate = some p

theorem Refers.upToDate_iff (h : s.Refers E) :
    s.UpToDate ↔ s.Refers fun p => p.isBuiltin = true := by
  have hp : ∀ p : Property, (p.isBuiltin = false → s.findProperty? p.surrogate = some p) ↔
      (p.isBuiltin = true ∨ s.properties.get? p.name = some p) := by
    intro p
    rw [h.findProperty?_surrogate_iff]
    cases p.isBuiltin <;> simp
  unfold UpToDate
  simp only [hp]
  exact ⟨fun hstored => ⟨h.listed, hstored⟩, fun hrefers => hrefers.stored⟩

theorem findProperty?_of_updateProperty (h : s.Refers E) {p : Property}
    (hok : (s.updateProperty p).result = .ok ()) :
    (s.updateProperty p).state.findProperty? p.surrogate = some p := by
  refine (h.updateProperty p).findProperty?_surrogate_iff.2 ?_
  obtain ⟨e, hs⟩ | ⟨old, schemas, -, -, -, -, hs⟩ := updateProperty_cases s p
  · rw [hs] at hok
    cases hok
  · rw [hs]
    exact SortedMap.get?_insert_self _ _ _

end Store

namespace Database

variable {E : Property → Prop} {db : Database}

theorem refers_serve (h : db.store.Refers E) {r : Request}
    (hr : ∀ b, r = .updateSchema b →
      ∀ p ∈ b.properties, E p ∨ db.store.properties.get? p.name = some p) :
    (db.serve r).state.store.Refers E := by
  refine holds_store_serve (I := fun s => s.Refers E) h fun r' hasks => ?_
  cases hasks with
  | createSchema => exact h.createSchema (hr _ rfl)
  | updateSchema => exact h.updateSchema (hr _ rfl)
  | deleteSchema => exact h.deleteSchema _
  | createProperty => exact h.createProperty _
  | updateProperty => exact h.updateProperty _
  | deleteProperty hp => exact h.deleteProperty (of_deletableProperty hp)
  | createChronicle => exact h.createChronicle _
  | deleteChronicle => exact h.deleteChronicle _

theorem findProperty?_of_updateProperty (h : db.store.Refers E) {p : Property}
    (hok : (db.updateProperty p).result = .ok ()) :
    (db.updateProperty p).state.store.findProperty? p.surrogate = some p := by
  unfold Database.updateProperty at hok ⊢
  cases hcheck : db.check .modify p.surrogate with
  | error e =>
    rw [hcheck] at hok
    cases hok
  | ok u =>
    rw [hcheck] at hok
    exact Store.findProperty?_of_updateProperty h (mapError_eq_ok_iff.1 hok)

/-- A new property is given as it is answered. -/
theorem gives_createProperty (h : db.store.Refers E) {p q : Property}
    (hok : (db.createProperty p).result = .ok q) : (db.createProperty p).state.Gives q := by
  have hrefers := h.createProperty p
  unfold Database.createProperty at hok ⊢
  cases hcheck : db.check .create p.surrogate with
  | error e =>
    rw [hcheck] at hok
    cases hok
  | ok u =>
    rw [hcheck] at hok
    let stored := (db.onStore (·.createProperty p)).andThen fun id db =>
      db.whenOk (Failure.ofError (p.upgrade id)) (.ok db ·)
    have hok : stored.result = .ok q := hok
    obtain ⟨id, hid, hq⟩ := Outcome.result_andThen_eq_ok hok
    obtain ⟨q, hup, rfl⟩ := result_whenOk_eq_ok hq
    refine .inr (.inr ?_)
    change stored.state.store.findProperty? q.surrogate = some q
    rw [store_andThen _ _ fun _ _ => store_whenOk fun _ => rfl]
    change (db.store.createProperty p).state.findProperty? q.surrogate = some q
    rw [hrefers.findProperty?_surrogate_iff]
    have hid : (db.store.createProperty p).result = .ok id := mapError_eq_ok_iff.1 hid
    obtain ⟨e, hs⟩ | ⟨stored, s', hstored, hs, hproperties⟩ := db.store.createProperty_upgrade p
    · rw [hs] at hid
      cases hid
    · rw [hs] at hid ⊢
      obtain rfl := Except.ok.inj hid
      obtain rfl := Except.ok.inj (hstored.symm.trans (mapError_eq_ok_iff.1 hup))
      obtain ⟨x, -, rfl⟩ := map_eq_ok_iff.1 hstored
      rw [Outcome.ok, hproperties]
      exact SortedMap.get?_insert_self _ _ _

/-- What is true of what the cache provides and of the stored properties is true of all that is given. -/
theorem Gives.holds {p : Property} (h : db.Gives p) (hrefers : db.store.Refers E)
    (hbuiltin : ∀ p : Property, p.isBuiltin → P p) (hcache : db.cache.Provides P)
    (hstored : ∀ p, db.store.findProperty? p.surrogate = some p → P p) : P p := by
  obtain hp | ⟨name, hname⟩ | hp := h
  · exact hbuiltin p hp
  · unfold Database.property at hname
    split at hname
    next q hq =>
      obtain rfl := Except.ok.inj hname
      exact hcache.property? (fun p hp => hbuiltin p (Builtin.isBuiltin_of_mem p hp)) hq
    next =>
      split at hname
      next q hq =>
        obtain rfl := Except.ok.inj hname
        have hq' := hrefers.listed.name_eq name q hq
        exact hstored q (hrefers.findProperty?_surrogate_iff.2 (hq'.symm ▸ hq))
      next => cases hname
  · exact hstored p hp

end Database

/-- Whether the properties that a request puts into definitions are among those that have `P` and those
that the schema refers to already. -/
def Blueprint.Request.TakesFrom (P : Property → Prop) (r : Request) : Prop :=
  ∀ Q : Property → Prop, (∀ p, P p → Q p) → r.Seals (Attribute.RefersTo Q)

namespace Workspace

variable {w : Workspace} {rs rs' : List Request} {r : Request} {b : Blueprint}

/-- Whether the properties that a request puts into definitions have `P`. -/
def Request.TakesFrom (P : Property → Prop) : Request → Prop
  | .inSession _ r => r.TakesFrom P
  | _ => True

theorem Request.TakesFrom.mono (h : r.TakesFrom P) (hPQ : ∀ p, P p → Q p) : r.TakesFrom Q := by
  cases r with
  | inSession i r => exact fun R hR => h R fun p hp => hR p (hPQ p hp)
  | _ => trivial

/-- The property has been stored as it is, at some time during the requests. -/
def Seen (w : Workspace) (rs : List Request) (p : Property) : Prop :=
  ∃ rs', rs' <+: rs ∧ (w.run rs').database.store.findProperty? p.surrogate = some p

/-- The property has been given, at some time during the requests. -/
def Given (w : Workspace) (rs : List Request) (p : Property) : Prop :=
  ∃ rs', rs' <+: rs ∧ (w.run rs').database.Gives p

/-- A request that, after the others, saves a schema with a property that has been stored as it is and
is not any more. -/
def SavesOutdated (w : Workspace) (rs : List Request) (r : Request) : Prop :=
  ∃ b, (w.run rs).Saves r b ∧ ∃ p ∈ b.properties, p.isBuiltin = false ∧ w.Seen rs p ∧
    (w.run rs).database.store.findProperty? p.surrogate ≠ some p

theorem refers_serve (h : w.database.store.Refers fun _ => True) (r : Request) :
    (w.serve r).database.store.Refers fun _ => True := by
  obtain ⟨granted, hs⟩ | ⟨r', hs⟩ := w.database_serve r <;> rw [hs]
  · exact h
  · exact Database.refers_serve h fun _ _ _ _ => .inl trivial

theorem refers_run (h : w.database.store.Refers fun _ => True) (rs : List Request) :
    (w.run rs).database.store.Refers fun _ => True := by
  induction rs generalizing w with
  | nil => exact h
  | cons r rs ih => exact ih (refers_serve h r)

/-- All properties in the store's schemas, in the cache and in the sessions have `P`. -/
structure Holds (P : Property → Prop) (w : Workspace) : Prop where
  isSealed : w.Sealed (Attribute.RefersTo P)
  cache : w.database.cache.Provides P

theorem Holds.serve (h : w.Holds P) (hrefers : w.database.store.Refers fun _ => True)
    (hbuiltin : ∀ p : Property, p.isBuiltin → P p)
    (hr : r.TakesFrom Q) (hQ : ∀ p, Q p → P p)
    (hstored : ∀ p, (w.serve r).database.store.findProperty? p.surrogate = some p → P p) :
    (w.serve r).Holds P := by
  have hadmits : w.Admits (Attribute.RefersTo P) (.request r) := by
    cases r with
    | inSession i r => exact hr P hQ
    | toDatabase r hnot =>
      cases r with
      | updateProperty p =>
        intro hok n b hb a ha q hq hagrees
        rintro _ ⟨⟩
        exact hstored p (Database.findProperty?_of_updateProperty hrefers hok)
      | _ => trivial
    | _ => trivial
  refine ⟨h.isSealed.serve (Attribute.steady_refersTo hbuiltin) hadmits, ?_⟩
  obtain ⟨granted, hs⟩ | ⟨r', hs⟩ := w.database_serve r <;> rw [hs]
  · exact h.cache
  · exact Database.provides_serve (fun p hp => hbuiltin p (Builtin.isBuiltin_of_mem p hp))
      h.isSealed.store.mentions h.cache r'

/-- Wherever there is a property, it has been stored as it is unless it is a built-in one. -/
theorem holds_run (hstart : ∀ P, w.Holds P) (hrefers : w.database.store.Refers fun _ => True)
    (hrs : ∀ rs' r, rs' ++ [r] <+: rs → r.TakesFrom (w.Given rs')) :
    (w.run rs).Holds fun p => p.isBuiltin ∨ w.Seen rs p := by
  -- what is given may have come in at any time before, so all these times are taken together
  suffices hall : ∀ rs', rs' <+: rs → ∀ rs'', rs'' <+: rs' →
      (w.run rs'').Holds fun p => p.isBuiltin ∨ w.Seen rs p from
    hall rs List.prefix_rfl rs List.prefix_rfl
  intro rs'
  induction rs' using List.reverseRecOn with
  | nil =>
    intro _ rs'' hrs''
    obtain rfl := List.prefix_nil.1 hrs''
    exact hstart _
  | append_singleton rs' r ih =>
    intro hprefix rs'' hrs''
    have hbefore := ih ((List.prefix_append rs' [r]).trans hprefix)
    rcases List.prefix_concat_iff.1 hrs'' with rfl | hrs''
    · have hrun : w.run (rs' ++ [r]) = (w.run rs').serve r := List.foldl_concat ..
      rw [hrun]
      refine (hbefore rs' List.prefix_rfl).serve (refers_run hrefers rs') (fun _ => .inl)
        (hrs rs' r hprefix) (fun p hp => ?_) fun p hp => .inr ⟨rs' ++ [r], hprefix, hrun ▸ hp⟩
      -- what is given is what the cache or the store has at the time
      obtain ⟨before, hprevious, hgives⟩ := hp
      refine hgives.holds (refers_run hrefers before) (fun _ => .inl) (hbefore before hprevious).cache
        fun p hp => .inr ⟨before, ?_, hp⟩
      exact (hprevious.trans (List.prefix_append rs' [r])).trans hprefix
    · exact hbefore rs'' hrs''

/-- The request saves a schema with a property that is not stored as it is. -/
def SavesOther (w : Workspace) (r : Request) : Prop :=
  ∃ b, w.Saves r b ∧ ∃ p ∈ b.properties, p.isBuiltin = false ∧
    w.database.store.findProperty? p.surrogate ≠ some p

theorem upToDate_serve_iff (hrefers : w.database.store.Refers fun _ => True)
    (h : w.database.store.UpToDate) (r : Request) :
    (w.serve r).database.store.UpToDate ↔ ¬w.SavesOther r := by
  have hbefore := hrefers.upToDate_iff.1 h
  obtain ⟨b, hsaves, hs⟩ | ⟨hnot, hs⟩ := w.store_serve r
  · obtain ⟨i, b', -, -, hok⟩ := id hsaves
    obtain ⟨hsaved, hstore⟩ := Database.saved_of_updateSchema hok
    have hsame : (w.database.updateSchema b).state.store.properties = w.database.store.properties := by
      rcases hstore with hstore | hstore <;> rw [hstore]
      · exact Store.properties_createSchema _ b
      · exact Store.properties_updateSchema _ b
    rw [hs]
    constructor
    · rintro hafter ⟨c, hc, p, hp, hforeign, hne⟩
      obtain rfl := hsaves.unique hc
      have hclose : b'.properties = b.properties := by
        rw [hsaved.closed, Store.properties_close]
        rfl
      have hfound := hafter b.name b' hsaved.stored p (hclose ▸ hp) hforeign
      rw [Store.findProperty?, hsame] at hfound
      exact hne hfound
    · intro hnone
      have hb : ∀ p ∈ b.properties, p.isBuiltin = true ∨
          w.database.store.properties.get? p.name = some p := by
        intro p hp
        by_contra hneither
        obtain ⟨hforeign, hother⟩ := not_or.1 hneither
        refine hnone ⟨b, hsaves, p, hp, by simpa using hforeign, ?_⟩
        rwa [ne_eq, hrefers.findProperty?_surrogate_iff]
      have hafter := Database.refers_serve (r := .updateSchema b) hbefore fun _ hc => by
        obtain rfl := Database.Request.updateSchema.inj hc
        exact hb
      exact hafter.upToDate_iff.2 hafter
  · refine ⟨fun _ ⟨b, hb, _⟩ => hnot b hb, fun _ => ?_⟩
    obtain hs | ⟨r, hr, rfl, hs⟩ := hs
    · rw [hs]
      exact h
    · rw [hs]
      have hafter := Database.refers_serve hbefore fun b hb => absurd hb (hr b)
      exact hafter.upToDate_iff.2 hafter

/-- Whatever sessions are begun, changed and saved and whatever else is requested of a database with
nothing stored, if each property that is put into a definition has been given: the properties in the
stored schemas are always the stored ones, exactly if no schema is saved with a property that has been
replaced or deleted since. -/
theorem properties_run (database : DatabaseId) {capacity : Nat} (h : 0 < capacity) (naming : Naming)
    (resolution : ResolutionConfig) {rs : List Request}
    (hrs : ∀ rs' r, rs' ++ [r] <+: rs →
      r.TakesFrom ((fresh database capacity h naming resolution).Given rs')) :
    (∀ rs', rs' <+: rs →
      ((fresh database capacity h naming resolution).run rs').database.store.UpToDate) ↔
    ∀ rs' r, rs' ++ [r] <+: rs →
      ¬(fresh database capacity h naming resolution).SavesOutdated rs' r := by
  let w := fresh database capacity h naming resolution
  have hrefers : w.database.store.Refers fun _ => True := Store.refers_empty database
  have hstart : ∀ P, w.Holds P := fun P =>
    ⟨sealed_fresh database h naming resolution, Cache.provides_empty capacity h⟩
  have hempty : w.database.store.UpToDate := fun n b hb => by simp [w, fresh, Database.fresh] at hb
  refine (forall_foldl_iff (fun w : Workspace => w.database.store.UpToDate) SavesOther hempty
    (fun rs r h => upToDate_serve_iff (refers_run hrefers rs) h r) rs).trans ?_
  refine forall₂_congr fun rs' r => forall_congr' fun hprefix => not_congr ?_
  have hholds : (w.run rs').Holds fun p => p.isBuiltin ∨ w.Seen rs' p := by
    refine holds_run hstart hrefers fun rs'' r' hrs'' => hrs rs'' r' ?_
    exact (hrs''.trans (List.prefix_append rs' [r])).trans hprefix
  constructor
  · -- a session has only what has been stored as it is; what is not stored so now is outdated
    rintro ⟨b, hb, p, hp, hforeign, hne⟩
    have hseen := (hholds.isSealed.sessions b hb.mem_sessions).mentions p hp
    refine ⟨b, hb, p, hp, hforeign, hseen.resolve_left ?_, hne⟩
    simp [hforeign]
  · rintro ⟨b, hb, p, hp, hforeign, -, hne⟩
    exact ⟨b, hb, p, hp, hforeign, hne⟩

def sampleUnit (id? : Option UInt64) (indexed : Bool) : Property where
  surrogate := ⟨⟨1⟩, .property, id?⟩
  name := "unit"
  valueType := Builtin.textType
  indexed

def sampleStart : Workspace := fresh ⟨1⟩ 1 Nat.one_pos {} {}

def sampleDefinition : List Request := [
  .toDatabase (.createProperty (sampleUnit none false)) (fun _ => by nofun),
  .newSchema "s",
  .inSession 0 (.addAttribute { number := 1, property := some (sampleUnit (some 1) false) })]

/-- The property is put into the schema just after it has been stored, and no other one later. -/
theorem takesFrom_sampleDefinition {more : List Request} (hmore : ∀ r ∈ more, ∀ P, r.TakesFrom P) :
    ∀ rs' r, rs' ++ [r] <+: sampleDefinition ++ more →
      r.TakesFrom (sampleStart.run rs').database.Gives := by
  rw [forall_concat_prefix_iff]
  intro k hk
  have hgiven : (sampleStart.database.createProperty (sampleUnit none false)).state.Gives
      (sampleUnit (some 1) false) :=
    Database.gives_createProperty (Store.refers_empty (E := fun _ => True) ⟨1⟩) rfl
  have hlength : sampleDefinition.length = 3 := rfl
  by_cases hmem : k < 3
  · rw [List.take_append_of_le_length hmem.le, List.getElem_append_left hmem]
    obtain rfl | rfl | rfl : k = 0 ∨ k = 1 ∨ k = 2 := by omega
    · trivial
    · trivial
    · intro Q hQ
      rintro _ ⟨⟩
      exact hQ _ hgiven
  · rw [List.getElem_append_right (by omega)]
    exact hmore _ (List.getElem_mem _) _

/-- The schema is saved, the property is replaced, and a session that is begun after that is saved. -/
def sampleReplacement : List Request := sampleDefinition ++ [
  .save 0,
  .toDatabase (.updateProperty (sampleUnit (some 1) true)) (fun _ => by nofun),
  .editSchema "s",
  .save 1]

theorem properties_run_sample :
    (∀ rs' r, rs' ++ [r] <+: sampleReplacement → r.TakesFrom (sampleStart.Given rs')) ∧
      ((sampleStart.run sampleReplacement).database.store.schemas.get? "s").map (·.properties) =
        some [sampleUnit (some 1) true] ∧
      (sampleStart.run sampleReplacement).database.store.UpToDate := by
  have htakes : ∀ rs' r, rs' ++ [r] <+: sampleReplacement → r.TakesFrom (sampleStart.Given rs') := by
    intro rs' r hrs'
    refine (takesFrom_sampleDefinition ?_ rs' r hrs').mono fun p hp => ⟨rs', List.prefix_rfl, hp⟩
    simp [Request.TakesFrom]
  have hsaves : ∀ rs i p, ((sampleStart.run rs).sessions[i]?).map (·.properties) = some [p] →
      (sampleStart.run rs).database.store.findProperty? p.surrogate = some p →
      ¬sampleStart.SavesOutdated rs (.save i) := by
    rintro rs i p hproperties hp ⟨b, ⟨j, b', hr, hb, -⟩, q, hq, -, -, hne⟩
    obtain rfl : i = j := Request.save.inj hr
    obtain rfl : q = p := by simpa [Option.some.inj ((hb ▸ hproperties :))] using hq
    exact hne hp
  refine ⟨htakes, rfl, (properties_run ⟨1⟩ Nat.one_pos {} {} htakes).2 ?_ _ List.prefix_rfl⟩
  rw [forall_concat_prefix_iff]
  intro k hk
  have hlength : sampleReplacement.length = 7 := rfl
  obtain rfl | rfl | hother : k = 3 ∨ k = 6 ∨ k ≠ 3 ∧ k ≠ 6 := by omega
  · exact hsaves _ 0 (sampleUnit (some 1) false) rfl rfl
  · exact hsaves _ 1 (sampleUnit (some 1) true) rfl rfl
  · rintro ⟨b, ⟨i, _, hr, -⟩, -⟩
    obtain rfl | rfl | rfl | rfl | rfl : k = 0 ∨ k = 1 ∨ k = 2 ∨ k = 4 ∨ k = 5 := by omega
    all_goals cases hr

/-- The schema is saved, and a session is begun before the property is replaced and saved after that. -/
def sampleInterleaving : List Request := sampleDefinition ++ [
  .save 0,
  .editSchema "s",
  .toDatabase (.updateProperty (sampleUnit (some 1) true)) (fun _ => by nofun),
  .save 1]

def sampleDeletion : List Request := sampleDefinition ++ [
  .toDatabase (.deleteProperty "unit") (fun _ => by nofun),
  .save 0]

theorem properties_run_outdated :
    ((∀ rs' r, rs' ++ [r] <+: sampleInterleaving →
        r.TakesFrom (sampleStart.run rs').database.Gives) ∧
      ¬(sampleStart.run sampleInterleaving).database.store.UpToDate) ∧
    (∀ rs' r, rs' ++ [r] <+: sampleDeletion → r.TakesFrom (sampleStart.run rs').database.Gives) ∧
      ¬(sampleStart.run sampleDeletion).database.store.UpToDate := by
  have hnot : ∀ rs, ((sampleStart.run rs).database.store.schemas.get? "s").map (·.properties) =
        some [sampleUnit (some 1) false] →
      (sampleStart.run rs).database.store.findProperty? (sampleUnit (some 1) false).surrogate ≠
        some (sampleUnit (some 1) false) →
      ¬(sampleStart.run rs).database.store.UpToDate := by
    intro rs hschema hother h
    obtain ⟨b, hb, hproperties⟩ := Option.map_eq_some_iff.1 hschema
    exact hother (h "s" b hb _ (hproperties ▸ List.mem_singleton_self _) rfl)
  refine ⟨⟨takesFrom_sampleDefinition ?_, hnot _ rfl ?_⟩, takesFrom_sampleDefinition ?_, hnot _ rfl ?_⟩
  · simp [Request.TakesFrom]
  · intro h
    have hindexed : ((sampleStart.run sampleInterleaving).database.store.findProperty?
      (sampleUnit (some 1) false).surrogate).map (·.indexed) = some true := rfl
    rw [h] at hindexed
    cases hindexed
  · simp [Request.TakesFrom]
  · exact fun h => by cases h

end Workspace

end ChronicleMeta
