import ChronicleMeta.Proofs.Database.Chronicles
import ChronicleMeta.Proofs.Database.Session
import ChronicleMeta.Proofs.Store.Forest

/-!
The references between stored objects, in whatever order sessions are begun, changed and saved and
objects are created and deleted.
-/

namespace ChronicleMeta

theorem Text.matchesPattern_star (name : String) : matchesPattern "*" name := by
  have haccepts : Wildcard.accepts ['*'] name.toList = [].isSuffixOf name.toList := rfl
  exact haccepts.trans (by simp)

namespace Database

variable {α β : Type} {db : Database} {b : Blueprint} {name : String}

theorem result_whenOk_eq_ok {checked : Except Failure α} {act : α → β}
    {db' : Database} {b : β} (h : (db.whenOk checked fun a => .ok db' (act a)).result = .ok b) :
    ∃ a, checked = .ok a ∧ act a = b := by
  cases checked with
  | error e => cases h
  | ok a => exact ⟨a, rfl, Except.ok.inj h⟩

/-- Saving a session keeps the references of the store, and the session goes on with the schema. -/
theorem forest_updateSchema (h : db.store.Forest) (ht : db.store.Tracks b) :
    (db.updateSchema b).state.store.Forest ∧ db.store.Advances (db.updateSchema b).state.store ∧
      ∀ b', (db.updateSchema b).result = .ok b' → (db.updateSchema b).state.store.Tracks b' := by
  obtain ⟨e, hs⟩ | ⟨chain, hchain, hs | hs⟩ := updateSchema_cases db b
  · rw [hs]
    exact ⟨h, Store.advances_refl _, fun b' hb' => by cases hb'⟩
  · obtain ⟨hforest, hadvances⟩ := h.createSchema hchain
    have hstore : (db.updateSchema b).state.store = (db.store.createSchema b).state := by
      rw [hs]
      exact store_andThen _ _ fun id db => store_whenOk fun _ => rfl
    rw [hstore]
    refine ⟨hforest, hadvances, fun b' hb' => ?_⟩
    rw [hs] at hb'
    obtain ⟨id, hid, hb'⟩ := Outcome.result_andThen_eq_ok hb'
    obtain ⟨stored, hup, rfl⟩ := result_whenOk_eq_ok hb'
    exact h.tracks_created ht (mapError_eq_ok_iff.1 hid) (mapError_eq_ok_iff.1 hup)
  · obtain ⟨hforest, hadvances⟩ := h.updateSchema ht hchain
    have hstore : (db.updateSchema b).state.store = (db.store.updateSchema b).state := by
      rw [hs]
      exact store_andThen _ _ fun _ _ => rfl
    rw [hstore]
    refine ⟨hforest, hadvances, fun b' hb' => ?_⟩
    rw [hs] at hb'
    obtain ⟨_, -, hb'⟩ := Outcome.result_andThen_eq_ok hb'
    obtain rfl := Except.ok.inj hb'
    exact (ht.of_eq rfl rfl).advance hadvances

/-- No schema but the one of the name has `x` in its chain. -/
theorem of_dependent?_eq_none {x : Surrogate} {names : List String}
    (h : db.dependent? name x names = .ok none) : ∀ other ∈ names, other ≠ name →
      ∃ c chain, db.store.schemas.get? other = some c ∧
        c.chain db.store.source db.resolution.maxDepth = .ok chain ∧
        ∀ d ∈ chain, d.surrogate.agrees x = false := by
  induction names with
  | nil => simp
  | cons other names ih =>
    unfold dependent? at h
    by_cases hname : other = name
    · rw [if_pos hname] at h
      exact List.forall_mem_cons.2 ⟨fun hne => absurd hname hne, ih h⟩
    · rw [if_neg hname] at h
      obtain ⟨c, hc, h⟩ := bind_eq_ok_iff.1 h
      obtain ⟨surrogates, hsurrogates, h⟩ := bind_eq_ok_iff.1 h
      obtain ⟨chain, hchain, rfl⟩ := map_eq_ok_iff.1 hsurrogates
      split_ifs at h with hany
      · cases h
      · refine List.forall_mem_cons.2 ⟨fun _ => ⟨c, chain, schema?_of_loadSchema hc, hchain, ?_⟩, ih h⟩
        simpa using hany

/-- A schema that may be deleted is stored, is no base of another one, and no chronicle uses it. -/
theorem of_deletableSchema (h : db.store.Forest) (hb : db.deletableSchema name = .ok b) :
    db.store.schemas.get? name = some b ∧
      (∀ n c, n ≠ name → db.store.schemas.get? n = some c → c.base ≠ some name) ∧
      ∀ n c, db.store.chronicles.get? n = some c → b.surrogate.agrees c.schema = false := by
  obtain ⟨b', hload, hb⟩ := bind_eq_ok_iff.1 hb
  obtain ⟨_, -, hb⟩ := bind_eq_ok_iff.1 hb
  obtain ⟨dependent, hdependent, hb⟩ := bind_eq_ok_iff.1 hb
  cases dependent with
  | some other => cases hb
  | none =>
    cases hused : (db.store.chroniclesUsing b'.surrogate).head? with
    | some chronicle =>
      simp only [hused] at hb
      cases hb
    | none =>
      simp only [hused] at hb
      obtain rfl := pure_eq_ok_iff.1 hb
      have hstored := schema?_of_loadSchema hload
      obtain ⟨id, hid, -⟩ := h.schemas.owned name b' hstored
      refine ⟨hstored, fun n c hn hc hbase => ?_, fun n c hc => ?_⟩
      · have hmem : n ∈ db.store.schemasMatching "*" :=
          List.mem_filter.2 ⟨List.mem_map_of_mem (SortedMap.mem_toList_iff.2 hc),
            Text.matchesPattern_star n⟩
        obtain ⟨c', chain, hc', hchain, hnone⟩ := of_dependent?_eq_none hdependent n hmem hn
        obtain rfl := Option.some.inj (hc.symm.trans hc')
        have hmember := Blueprint.mem_chain_of_base hchain hbase (congrArg Except.ok hstored)
        have hagrees : b'.surrogate.agrees b'.surrogate :=
          Surrogate.agrees_iff.2 ⟨rfl, ⟨_, _, _⟩, by rw [hid]; rfl⟩
        rw [hnone b' hmember] at hagrees
        cases hagrees
      · have hempty := List.head?_eq_none_iff.1 hused
        rw [Store.chroniclesUsing, List.map_eq_nil_iff, List.filter_eq_nil_iff] at hempty
        have hnot := hempty c (SortedMap.mem_values_iff.2 ⟨n, hc⟩)
        refine Bool.eq_false_iff.2 fun hagrees => hnot ?_
        obtain ⟨heq, k, hk⟩ := Surrogate.agrees_iff.1 hagrees
        exact Surrogate.agrees_iff.2 ⟨heq.symm, k, heq ▸ hk⟩

/-- Every request but to save a session keeps the references of the store. -/
theorem forest_serve (h : db.store.Forest) {r : Request} (hr : ∀ b, r ≠ .updateSchema b) :
    (db.serve r).state.store.Forest ∧ db.store.Advances (db.serve r).state.store := by
  refine holds_store_serve (I := fun s => s.Forest ∧ db.store.Advances s)
    ⟨h, Store.advances_refl _⟩ fun r' hasks => ?_
  cases hasks with
  | createSchema => exact absurd rfl (hr _)
  | updateSchema => exact absurd rfl (hr _)
  | deleteSchema hb =>
    obtain ⟨hstored, hbase, hused⟩ := of_deletableSchema h hb
    exact h.deleteSchema hstored hbase hused
  | createProperty => exact h.createProperty _
  | updateProperty => exact h.updateProperty _
  | deleteProperty => exact h.deleteProperty _
  | createChronicle hc =>
    obtain ⟨parent, b, -, -, hb, -, rfl⟩ := of_creatableChronicle hc
    exact h.createChronicle hb rfl
  | deleteChronicle => exact h.deleteChronicle _

end Database

namespace Workspace

/-- The references of the store lead to stored objects, and the sessions are those of its schemas. -/
structure Sound (w : Workspace) : Prop where
  forest : w.database.store.Forest
  tracks : ∀ b ∈ w.sessions, w.database.store.Tracks b

variable {w : Workspace}

theorem Sound.withSession (h : w.Sound) {b : Blueprint} (hb : w.database.store.Tracks b) :
    (w.withSession b).Sound where
  forest := h.forest
  tracks := List.forall_mem_append.2 ⟨h.tracks, List.forall_mem_singleton.2 hb⟩

/-- Another state of the database, to which the store has advanced. -/
theorem Sound.withDatabase (h : w.Sound) {db : Database} (hforest : db.store.Forest)
    (hadvances : w.database.store.Advances db.store) : Sound { w with database := db } where
  forest := hforest
  tracks b hb := (h.tracks b hb).advance hadvances

theorem Sound.newSchema (h : w.Sound) (name : String) :
    (w.withSession (w.database.newSchema name)).Sound :=
  h.withSession (.inl rfl)

theorem Sound.editSchema (h : w.Sound) {name : String} {b : Blueprint}
    (hb : w.database.editSchema name = .ok b) : (w.withSession b).Sound := by
  obtain ⟨stored, hload, hb⟩ := bind_eq_ok_iff.1 hb
  obtain ⟨_, -, hb⟩ := bind_eq_ok_iff.1 hb
  obtain rfl := pure_eq_ok_iff.1 hb
  have htracks := h.forest.tracks_stored (Database.schema?_of_loadSchema hload)
  exact h.withSession (htracks.of_eq rfl rfl)

theorem Sound.inSession (h : w.Sound) (i : Nat) (r : Blueprint.Request) :
    Sound { w with sessions := w.sessions.modify i (·.serve r) } where
  forest := h.forest
  tracks b hb := by
    obtain ⟨j, hj⟩ := List.mem_iff_getElem?.1 hb
    rw [List.getElem?_modify, Option.map_eq_map, Option.map_eq_some_iff] at hj
    obtain ⟨b₀, hb₀, rfl⟩ := hj
    have htracks := h.tracks b₀ (List.mem_of_getElem? hb₀)
    split_ifs
    · have hsame := b₀.continues_serve r
      exact htracks.of_eq hsame.surrogate_eq hsame.name_eq
    · exact htracks

theorem Sound.save (h : w.Sound) (i : Nat) : (w.save i).Sound := by
  unfold Workspace.save
  split
  next => exact h
  next b hb =>
    have htracks := h.tracks b (List.mem_of_getElem? hb)
    obtain ⟨hforest, hadvances, hstored⟩ := Database.forest_updateSchema h.forest htracks
    dsimp only
    split
    next stored hok =>
      refine ⟨hforest, fun b' hb' => ?_⟩
      obtain hold | rfl := List.mem_or_eq_of_mem_set hb'
      · exact (h.tracks b' hold).advance hadvances
      · exact hstored _ hok
    next => exact h.withDatabase hforest hadvances

theorem Sound.serve (h : w.Sound) (r : Request) : (w.serve r).Sound := by
  cases r with
  | newSchema name => exact h.newSchema name
  | editSchema name =>
    unfold Workspace.serve
    dsimp only
    split
    next b hb => exact h.editSchema hb
    next => exact h
  | copySession i =>
    unfold Workspace.serve
    dsimp only
    split
    next b hb => exact h.withSession (h.tracks b (List.mem_of_getElem? hb))
    next => exact h
  | inSession i r => exact h.inSession i r
  | save i => exact h.save i
  | permit granted => exact h.withDatabase h.forest (Store.advances_refl _)
  | toDatabase r hr =>
    obtain ⟨hforest, hadvances⟩ := Database.forest_serve h.forest hr
    exact h.withDatabase hforest hadvances

theorem Sound.run (h : w.Sound) (rs : List Request) : (w.run rs).Sound := by
  induction rs generalizing w with
  | nil => exact h
  | cons r rs ih => exact ih (h.serve r)

/-- A workspace of a database with nothing stored, and no session. -/
def fresh (database : DatabaseId) (capacity : Nat) (h : 0 < capacity) (naming : Naming)
    (resolution : ResolutionConfig) : Workspace where
  database := .fresh database capacity h naming resolution

theorem sound_fresh (database : DatabaseId) (capacity : Nat) (h : 0 < capacity) (naming : Naming)
    (resolution : ResolutionConfig) : (fresh database capacity h naming resolution).Sound where
  forest := Store.forest_empty database
  tracks := by simp [fresh]

/-- In whatever order sessions are begun, changed and saved, also at the same time, and schemas and
chronicles are created and deleted: who follows base names from a stored schema meets no name twice
and only names of stored schemas, and the schema of every stored chronicle is stored. -/
theorem references_run (database : DatabaseId) {capacity : Nat} (h : 0 < capacity) (naming : Naming)
    (resolution : ResolutionConfig) (rs : List Request) :
    let s := ((fresh database capacity h naming resolution).run rs).database.store
    (∀ n b l, s.schemas.get? n = some b → (n :: l).IsChain s.Extends →
      (n :: l).Nodup ∧ ∀ m ∈ n :: l, ∃ b, s.schemas.get? m = some b) ∧
    ∀ n c, s.chronicles.get? n = some c →
      ∃ m b, s.schemas.get? m = some b ∧ b.surrogate.agrees c.schema := by
  intro s
  have hforest := ((sound_fresh database capacity h naming resolution).run rs).forest
  refine ⟨fun n b l hb hl => ?_, hforest.used⟩
  have hgrounded := hforest.grounded n b hb
  exact ⟨hgrounded.nodup hl, fun m hm => (hgrounded.of_isChain hl m hm).stored⟩

/-- Two sessions make each of two schemas the base of the other one. The first is saved, the second
is refused, and so is to delete either schema while a chronicle uses the derived one. -/
def sampleRequests : List Request := [
  .newSchema "a", .save 0, .newSchema "b", .save 1,
  .editSchema "a", .editSchema "b",
  .inSession 2 (.setBase (some "b")), .inSession 3 (.setBase (some "a")),
  .save 2, .save 3,
  .toDatabase (.createChronicle "c" none "a") (fun _ => by nofun),
  .toDatabase (.deleteSchema "b") (fun _ => by nofun),
  .toDatabase (.deleteSchema "a") (fun _ => by nofun)]

def sampleStore : Store :=
  ((fresh ⟨1⟩ 1 Nat.one_pos {} { requireComplete := false }).run sampleRequests).database.store

theorem references_run_sample :
    (sampleStore.Extends "a" "b" ∧ ¬sampleStore.Extends "b" "a") ∧
      (["a", "b"].Nodup ∧ ∀ m ∈ ["a", "b"], ∃ b, sampleStore.schemas.get? m = some b) ∧
      ∃ c m b, sampleStore.chronicles.get? "c" = some c ∧ sampleStore.schemas.get? m = some b ∧
        b.surrogate.agrees c.schema := by
  have hbases : (sampleStore.schemas.get? "a").map (·.base) = some (some "b") ∧
      (sampleStore.schemas.get? "b").map (·.base) = some none := by decide +kernel
  obtain ⟨a, ha, hbase⟩ := Option.map_eq_some_iff.1 hbases.1
  obtain ⟨b, hb, hroot⟩ := Option.map_eq_some_iff.1 hbases.2
  have hextends : sampleStore.Extends "a" "b" := ⟨a, ha, hbase⟩
  have hnot : ¬sampleStore.Extends "b" "a" := by
    rintro ⟨b', hb', hbase'⟩
    obtain rfl := Option.some.inj (hb.symm.trans hb')
    cases hroot.symm.trans hbase'
  have hchronicle : sampleStore.chronicles.contains "c" := by decide +kernel
  obtain ⟨c, hc⟩ := SortedMap.contains_iff.1 hchronicle
  obtain ⟨hchains, hused⟩ :=
    references_run ⟨1⟩ Nat.one_pos {} { requireComplete := false } sampleRequests
  obtain ⟨m, d, hd, hagrees⟩ := hused "c" c hc
  have hchain := hchains "a" a ["b"] ha
    (List.isChain_cons_cons.2 ⟨hextends, List.isChain_singleton "b"⟩)
  exact ⟨⟨hextends, hnot⟩, hchain, c, m, d, hc, hd, hagrees⟩

end Workspace

end ChronicleMeta
