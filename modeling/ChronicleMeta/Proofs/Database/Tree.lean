import ChronicleMeta.Proofs.Database.Integrity
import ChronicleMeta.Proofs.Naming
import ChronicleMeta.Proofs.Runs

/-!
Chronicles as a tree. A chronicle is created under one that is stored, but it does not keep that one
from being deleted, so that its parent may be gone, or be another one of the same name.
-/

namespace ChronicleMeta

namespace Store

/-- The second store has the same chronicles, and has perhaps assigned further ids. -/
structure SameChronicles (s s' : Store) : Prop where
  database_eq : s'.database = s.database
  lastId_le : s.lastId.toNat ≤ s'.lastId.toNat
  chronicles_eq : s'.chronicles = s.chronicles

variable {s : Store}

theorem sameChronicles_refl (s : Store) : s.SameChronicles s := ⟨rfl, Nat.le_refl _, rfl⟩

theorem sameChronicles_createSchema (s : Store) (b : Blueprint) :
    s.SameChronicles (s.createSchema b).state := by
  obtain ⟨e, hs⟩ | ⟨-, hlt, hs⟩ := createSchema_cases s b
  · rw [hs]
    exact sameChronicles_refl s
  · rw [hs]
    exact ⟨rfl, Nat.le_of_lt hlt, rfl⟩

theorem sameChronicles_updateSchema (s : Store) (b : Blueprint) :
    s.SameChronicles (s.updateSchema b).state := by
  obtain ⟨e, hs⟩ | ⟨old, -, -, hs⟩ := updateSchema_cases s b <;> rw [hs] <;>
    exact ⟨rfl, Nat.le_refl _, rfl⟩

theorem sameChronicles_deleteSchema (s : Store) (x : Surrogate) :
    s.SameChronicles (s.deleteSchema x).state := by
  unfold Store.deleteSchema
  cases s.loadSchema x <;> exact ⟨rfl, Nat.le_refl _, rfl⟩

theorem sameChronicles_createProperty (s : Store) (p : Property) :
    s.SameChronicles (s.createProperty p).state := by
  obtain ⟨e, hs⟩ | ⟨-, hlt, hs⟩ := createProperty_cases s p
  · rw [hs]
    exact sameChronicles_refl s
  · rw [hs]
    exact ⟨rfl, Nat.le_of_lt hlt, rfl⟩

theorem sameChronicles_updateProperty (s : Store) (p : Property) :
    s.SameChronicles (s.updateProperty p).state := by
  obtain ⟨e, hs⟩ | ⟨old, schemas, -, -, -, -, hs⟩ := updateProperty_cases s p <;> rw [hs] <;>
    exact ⟨rfl, Nat.le_refl _, rfl⟩

theorem sameChronicles_deleteProperty (s : Store) (x : Surrogate) :
    s.SameChronicles (s.deleteProperty x).state := by
  unfold Store.deleteProperty
  cases s.findProperty? x <;> exact ⟨rfl, Nat.le_refl _, rfl⟩

end Store

namespace Database

variable {db : Database}

/-- All that a request can do to the chronicles: nothing, or to create one, or to delete one. -/
theorem chronicles_serve (h : Registered db.store.database .chronicle db.store.lastId
      StoredChronicle.fullName StoredChronicle.surrogate db.store.chronicles) (r : Request) :
    db.store.SameChronicles (db.serve r).state.store ∨
      (∃ c n, c.fullName = n ∧ db.naming.validate (db.naming.split n).2 = .ok () ∧
        db.store.ParentOf db.naming n c.parent ∧
        c.surrogate = .committed db.store.database .chronicle db.store.nextId ∧
        db.store.chronicles.get? n = none ∧ db.store.lastId.toNat < db.store.nextId.toNat ∧
        (db.serve r).state.store = { db.store with
          lastId := db.store.nextId
          chronicles := db.store.chronicles.insert n c }) ∨
      ∃ n, r = .deleteChronicle n ∧ (db.deleteChronicle n).result = .ok () ∧
        (db.serve r).state.store = { db.store with chronicles := db.store.chronicles.erase n } := by
  obtain hs | ⟨r', hasks, hs⟩ := store_serve db r
  · rw [hs]
    exact .inl (Store.sameChronicles_refl _)
  · rw [hs]
    cases hasks with
    | createSchema => exact .inl (db.store.sameChronicles_createSchema _)
    | updateSchema => exact .inl (db.store.sameChronicles_updateSchema _)
    | deleteSchema => exact .inl (db.store.sameChronicles_deleteSchema _)
    | createProperty => exact .inl (db.store.sameChronicles_createProperty _)
    | updateProperty => exact .inl (db.store.sameChronicles_updateProperty _)
    | deleteProperty => exact .inl (db.store.sameChronicles_deleteProperty _)
    | @createChronicle _ _ _ stored hc =>
      obtain hsame | ⟨c, hcreated⟩ := createChronicle_cases hc
      · refine .inl ?_
        change db.store.SameChronicles (db.store.createChronicle stored).state
        rw [hsame]
        exact Store.sameChronicles_refl _
      · exact .inr (.inl ⟨c, _, hcreated⟩)
    | @deleteChronicle n stored hc =>
      rw [← hs]
      obtain ⟨e, -, hsame⟩ | ⟨hok, -, hdeleted⟩ := deleteChronicle_cases db n h
      · refine .inl ?_
        change db.store.SameChronicles (db.deleteChronicle n).state.store
        rw [hsame]
        exact Store.sameChronicles_refl _
      · exact .inr (.inr ⟨n, rfl, hok, hdeleted⟩)

/-- Every stored chronicle has the parent that its full name says. -/
def Linked (db : Database) : Prop :=
  ∀ n c, db.store.chronicles.get? n = some c → db.store.ParentOf db.naming n c.parent

/-- The request deletes a chronicle under which another one is stored. -/
def Orphans (db : Database) : Request → Prop
  | .deleteChronicle path => (db.deleteChronicle path).result = .ok () ∧
    ∃ n c, db.store.chronicles.get? n = some c ∧ (db.naming.split n).1 = some path
  | _ => False

/-- What is true of stored chronicles whatever is deleted. -/
structure Rooted (db : Database) : Prop where
  registered : Registered db.store.database .chronicle db.store.lastId StoredChronicle.fullName
    StoredChronicle.surrogate db.store.chronicles
  path : ∀ n c, db.store.chronicles.get? n = some c → db.naming.IsPath n
  top : ∀ n c, db.store.chronicles.get? n = some c → (db.naming.split n).1 = none → c.parent = none

theorem rooted_of_empty (h : db.store.chronicles = ∅) : db.Rooted := by
  constructor <;> rw [h]
  · exact registered_empty
  · simp
  · simp

theorem linked_of_empty (h : db.store.chronicles = ∅) : db.Linked := by
  unfold Linked
  simp [h]

theorem Rooted.isPath_new (h : db.Rooted) {n : String} {parent : Option Surrogate}
    (hvalid : db.naming.validate (db.naming.split n).2 = .ok ())
    (hparent : db.store.ParentOf db.naming n parent) : db.naming.IsPath n := by
  unfold Store.ParentOf at hparent
  split at hparent
  next hnone =>
    rw [Naming.eq_of_split_eq_none hnone] at hvalid
    exact Naming.isPath_of_validate hvalid
  next path hpath =>
    obtain ⟨c, hc, -⟩ := hparent
    rw [Naming.eq_of_split_eq_some hpath]
    exact (h.path path c hc).under hvalid

theorem Rooted.serve (h : db.Rooted) (r : Request) : (db.serve r).state.Rooted := by
  have hnaming := (keeps_serve db r).naming_eq
  obtain hs | ⟨c, n, rfl, hvalid, hparent, hsurrogate, -, hlt, hs⟩ | ⟨n, -, -, hs⟩ :=
    chronicles_serve h.registered r
  · refine ⟨?_, ?_, ?_⟩
    · rw [hs.database_eq, hs.chronicles_eq]
      exact h.registered.mono hs.lastId_le
    · rw [hs.chronicles_eq, hnaming]
      exact h.path
    · rw [hs.chronicles_eq, hnaming]
      exact h.top
  · refine ⟨?_, fun n' c' hc' => ?_, fun n' c' hc' htop => ?_⟩
    · rw [hs]
      exact h.registered.insert_new hsurrogate hlt
    · rw [hs, SortedMap.get?_insert] at hc'
      rw [hnaming]
      split_ifs at hc' with hn
      · exact hn ▸ h.isPath_new hvalid hparent
      · exact h.path n' c' hc'
    · rw [hs, SortedMap.get?_insert] at hc'
      rw [hnaming] at htop
      split_ifs at hc' with hn
      · obtain rfl := Option.some.inj hc'
        rw [hn] at htop
        simpa [Store.ParentOf, htop] using hparent
      · exact h.top n' c' hc' htop
  · have hrest : ∀ n' c', (db.serve r).state.store.chronicles.get? n' = some c' →
        db.store.chronicles.get? n' = some c' := by
      intro n' c' hc'
      rw [hs, SortedMap.get?_erase] at hc'
      split_ifs at hc'
      exact hc'
    refine ⟨?_, fun n' c' hc' => ?_, fun n' c' hc' htop => ?_⟩
    · rw [hs]
      exact h.registered.erase n
    · rw [hnaming]
      exact h.path n' c' (hrest n' c' hc')
    · rw [hnaming] at htop
      exact h.top n' c' (hrest n' c' hc') htop

theorem Rooted.run (h : db.Rooted) (rs : List Request) : (db.run rs).Rooted := by
  induction rs generalizing db with
  | nil => exact h
  | cons r rs ih => exact ih (h.serve r)

/-- A parent stays the parent while the chronicle of its path stays. -/
theorem parentOf_mono {s s' : Store} {naming : Naming} {n : String} {parent : Option Surrogate}
    (h : s.ParentOf naming n parent) (hs : ∀ path c, (naming.split n).1 = some path →
      s.chronicles.get? path = some c → s'.chronicles.get? path = some c) :
    s'.ParentOf naming n parent := by
  unfold Store.ParentOf at h ⊢
  split at h
  next => exact h
  next path hpath =>
    obtain ⟨c, hc, hparent⟩ := h
    exact ⟨c, hs path c hpath hc, hparent⟩

/-- A request that deletes no parent leaves every chronicle its parent. -/
theorem Linked.serve (h : db.Linked) (hrooted : db.Rooted) {r : Request} (hr : ¬db.Orphans r) :
    (db.serve r).state.Linked := by
  have hnaming := (keeps_serve db r).naming_eq
  intro n' c' hc'
  rw [hnaming]
  obtain hs | ⟨c, n, -, -, hparent, -, hfree, -, hs⟩ | ⟨n, rfl, hok, hs⟩ :=
    chronicles_serve hrooted.registered r
  · rw [hs.chronicles_eq] at hc'
    refine parentOf_mono (h n' c' hc') fun path d _ hd => ?_
    rw [hs.chronicles_eq, hd]
  · have hkept : ∀ path d, db.store.chronicles.get? path = some d →
        (db.serve r).state.store.chronicles.get? path = some d := by
      intro path d hd
      rw [hs]
      exact SortedMap.get?_insert_of_free _ hfree hd
    have hold : db.store.ParentOf db.naming n' c'.parent := by
      rw [hs, SortedMap.get?_insert] at hc'
      split_ifs at hc' with hn
      · obtain rfl := Option.some.inj hc'
        exact hn ▸ hparent
      · exact h n' c' hc'
    exact parentOf_mono hold fun path d _ => hkept path d
  · rw [hs, SortedMap.get?_erase] at hc'
    split_ifs at hc'
    refine parentOf_mono (h n' c' hc') fun path d hpath hd => ?_
    -- what is deleted is the parent of no stored chronicle
    have hne : path ≠ n := by
      rintro rfl
      exact hr ⟨hok, n', c', hc', hpath⟩
    rw [hs, SortedMap.get?_erase, if_neg hne, hd]

/-- A request that deletes a parent leaves a chronicle without its parent. -/
theorem Orphans.not_linked (hrooted : db.Rooted) {r : Request} (hr : db.Orphans r) :
    ¬(db.serve r).state.Linked := by
  intro h
  cases r with
  | deleteChronicle path =>
    obtain ⟨hok, n, c, hc, hpath⟩ := hr
    obtain ⟨e, he, -⟩ | ⟨-, -, hs⟩ := deleteChronicle_cases db path hrooted.registered
    · cases he.symm.trans hok
    · have hstore : (db.serve (.deleteChronicle path)).state.store =
          { db.store with chronicles := db.store.chronicles.erase path } := hs
      have hstored := h n c (by
        rw [hstore, SortedMap.get?_erase, if_neg (Naming.ne_of_split_eq_some hpath), hc])
      rw [(keeps_serve db _).naming_eq, hstore] at hstored
      simp [Store.ParentOf, hpath, SortedMap.get?_erase] at hstored
  | _ => exact hr

/-- Whatever is requested of a database without chronicles: the full names of the stored chronicles are
paths, and those without the path of a parent have no parent. That every other one has the chronicle
that is stored under this path as its parent, at every moment, comes to this: no chronicle is ever
deleted while one is stored under it. -/
theorem tree_run (db : Database) (h : db.store.chronicles = ∅) (rs : List Request) :
    (∀ n c, (db.run rs).store.chronicles.get? n = some c →
      db.naming.IsPath n ∧ ((db.naming.split n).1 = none → c.parent = none)) ∧
    ((∀ rs', rs' <+: rs → (db.run rs').Linked) ↔
      ∀ rs' r, rs' ++ [r] <+: rs → ¬(db.run rs').Orphans r) := by
  have hrooted := (rooted_of_empty h).run
  refine ⟨fun n c hc => ?_, forall_foldl_iff _ _ (linked_of_empty h) (fun rs r hlinked => ?_) rs⟩
  · rw [← (keeps_run db rs).naming_eq]
    exact ⟨(hrooted rs).path n c hc, (hrooted rs).top n c hc⟩
  · exact ⟨fun hafter horphans => horphans.not_linked (hrooted rs) hafter,
      hlinked.serve (hrooted rs)⟩

def sampleEmpty : Database := fresh ⟨1⟩ 1 Nat.one_pos {} { requireComplete := false }

def sampleCreations : List Request :=
  [.updateSchema (sampleEmpty.newSchema "s"), .createChronicle "a" none "s",
    .createChronicle "a.b" none "s"]

theorem tree_run_sample :
    sampleEmpty.store.chronicles = ∅ ∧
      (sampleEmpty.run sampleCreations).store.chronicles.contains "a.b" ∧
      sampleEmpty.naming.IsPath "a.b" ∧ (sampleEmpty.run sampleCreations).Linked ∧
      (sampleEmpty.run (sampleCreations ++ [.deleteChronicle "a.b"])).Linked := by
  have hcontains : (sampleEmpty.run sampleCreations).store.chronicles.contains "a.b" := by
    decide +kernel
  obtain ⟨c, hc⟩ := SortedMap.contains_iff.1 hcontains
  have htree := tree_run sampleEmpty rfl (sampleCreations ++ [.deleteChronicle "a.b"])
  have hpaths := (tree_run sampleEmpty rfl sampleCreations).1
  have hunder : ∀ e ∈ (sampleEmpty.run sampleCreations).store.chronicles.toList,
      (sampleEmpty.naming.split e.1).1 ≠ some "a.b" := by
    decide +kernel
  have hlinked := htree.2.2 fun rs' r hrs' horphans => by
    cases r with
    | deleteChronicle path =>
      rcases List.prefix_concat_iff.1 hrs' with heq | hfirst
      · obtain ⟨rfl, hpath⟩ := List.append_inj' heq rfl
        obtain rfl : path = "a.b" := by simpa using hpath
        obtain ⟨-, n, d, hd, hn⟩ := horphans
        rw [(keeps_run sampleEmpty sampleCreations).naming_eq] at hn
        exact hunder (n, d) (SortedMap.mem_toList_iff.2 hd) hn
      · have hmem := hfirst.subset (List.mem_append_right _ (List.mem_singleton_self _))
        simp [sampleCreations] at hmem
    | _ => exact horphans
  exact ⟨rfl, hcontains, (hpaths "a.b" c hc).1, hlinked _ (List.prefix_append _ _),
    hlinked _ List.prefix_rfl⟩

/-- The chronicle above the other one is deleted, and then one is created in its place. -/
theorem tree_run_orphan :
    sampleEmpty.store.chronicles = ∅ ∧
      ¬(sampleEmpty.run (sampleCreations ++ [.deleteChronicle "a"])).Linked ∧
      ¬(sampleEmpty.run (sampleCreations ++
        [.deleteChronicle "a", .createChronicle "a" none "s"])).Linked := by
  have hnot : ∀ rs x, ((sampleEmpty.run rs).store.chronicles.get? "a.b").map (·.parent) = some (some x) →
      ((sampleEmpty.run rs).store.chronicles.get? "a").map (·.surrogate) ≠ some x →
      ¬(sampleEmpty.run rs).Linked := by
    intro rs x hparent hother hlinked
    obtain ⟨c, hc, hx⟩ := Option.map_eq_some_iff.1 hparent
    have hpath : (sampleEmpty.naming.split "a.b").1 = some "a" := by decide +kernel
    have hstored := hlinked "a.b" c hc
    rw [(keeps_run sampleEmpty rs).naming_eq, Store.ParentOf, hpath, hx] at hstored
    obtain ⟨d, hd, heq⟩ := hstored
    exact hother (by rw [hd, Option.map_some, Option.some.inj heq])
  refine ⟨rfl, hnot _ (.committed ⟨1⟩ .chronicle 2) ?_ ?_,
    hnot _ (.committed ⟨1⟩ .chronicle 2) ?_ ?_⟩ <;> decide +kernel

end Database

end ChronicleMeta
