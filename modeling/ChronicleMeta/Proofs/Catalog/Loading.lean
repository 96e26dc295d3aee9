import ChronicleMeta.Proofs.Catalog.Listing
import ChronicleMeta.Proofs.Catalog.Rounds

/-!
The schemas of a catalog. Those from which bases lead to a schema without base are loaded, each after
its base, and the names of the others are reported, whatever the order of the catalog.
-/

namespace ChronicleMeta

namespace SchemaEntry

variable {entries : List SchemaEntry} {e : SchemaEntry} {start db : Database} {room : Nat}

/-- Where no entry that is left could be loaded, those are stored that lead to one without base. -/
theorem Stocked.contains_iff (h : Stocked entries start room db)
    (hnames : (entries.map (·.name)).Nodup)
    (hleft : ∀ e ∈ entries, ¬db.store.schemas.contains e.name → ¬e.isReady db) (he : e ∈ entries) :
    db.store.schemas.contains e.name ↔ e.IsRooted entries := by
  constructor
  · intro hcontains
    obtain ⟨b, hb⟩ := SortedMap.contains_iff.1 hcontains
    obtain ⟨e', he', hname, -, -, k, -, -, hrooted, -⟩ := h.stored _ b hb
    obtain rfl := eq_of_name hnames he' he hname
    exact ⟨k, hrooted⟩
  · rintro ⟨k, hrooted⟩
    by_contra hfree
    -- by induction the base of the entry is stored, so that it is ready
    induction hrooted with
    | root _ hbase => exact hleft _ he hfree (isReady_iff.2 fun m hm => by cases hbase.symm.trans hm)
    | @based entry base k _ hbase hnext ih =>
      have hstored : db.store.schemas.contains base.name := by
        by_contra hfree'
        exact ih hnext.mem hfree'
      refine hleft _ he hfree (isReady_iff.2 fun m hm => ?_)
      obtain rfl := Option.some.inj (hbase.symm.trans hm)
      exact hstored

open Classical in
/-- What loading leaves, and what it reports. -/
theorem loadSchemas_eq (hdb : Vacant db) (hentries : Wellformed entries db)
    (hroom : db.store.lastId.toNat + entries.length < 2 ^ 64) :
    (∃ room, Stocked entries db room (loadSchemas entries db).state) ∧
      (∀ e ∈ entries, (loadSchemas entries db).state.store.schemas.contains e.name ↔
        e.IsRooted entries) ∧
      (loadSchemas entries db).result = if ∀ e ∈ entries, e.IsRooted entries then .ok () else
        .error (.basesMissing ((entries.filter fun e => ¬e.IsRooted entries).map (·.name))) := by
  have hall : entries = entries.filter fun e => !db.store.schemas.contains e.name := by
    refine (List.filter_eq_self.2 fun e _ => ?_).symm
    simp [hdb.schemas_eq, SortedMap.contains]
  obtain ⟨db', left, hstocked, hleft, hnone, hload⟩ :=
    (hdb.stocked hroom).loadSchemas hdb hentries hall
  have hstored : ∀ e ∈ entries, db'.store.schemas.contains e.name ↔ e.IsRooted entries := by
    intro e he
    refine hstocked.contains_iff hentries.names (fun e he hfree => ?_) he
    have hmem : e ∈ left := by
      rw [hleft]
      exact List.mem_filter.2 ⟨he, by simpa using hfree⟩
    simp [hnone e hmem]
  have hrest : left = entries.filter fun e => ¬e.IsRooted entries := by
    rw [hleft]
    refine List.filter_congr fun e he => ?_
    have hiff := hstored e he
    by_cases hrooted : e.IsRooted entries
    · simp [hrooted, hiff.2 hrooted]
    · simp [hrooted, Bool.eq_false_iff.2 fun hc => hrooted (hiff.1 hc)]
  have hempty : left.isEmpty ↔ ∀ e ∈ entries, e.IsRooted entries := by
    simp [hrest, List.isEmpty_iff]
  rw [hload, ← hrest]
  by_cases hrooted : ∀ e ∈ entries, e.IsRooted entries
  · rw [if_pos hrooted, if_pos (hempty.2 hrooted)]
    exact ⟨⟨_, hstocked⟩, hstored, rfl⟩
  · rw [if_neg hrooted, if_neg fun h => hrooted (hempty.1 h)]
    exact ⟨⟨_, hstocked⟩, hstored, rfl⟩

theorem isRooted_perm {entries' : List SchemaEntry} (h : entries.Perm entries') :
    e.IsRooted entries' ↔ e.IsRooted entries :=
  ⟨fun ⟨k, hk⟩ => ⟨k, hk.of_subset h.symm.subset⟩, fun ⟨k, hk⟩ => ⟨k, hk.of_subset h.subset⟩⟩

theorem Wellformed.perm {entries' : List SchemaEntry} (h : Wellformed entries db)
    (hperm : entries.Perm entries') : Wellformed entries' db where
  names := (hperm.map _).nodup_iff.1 h.names
  builds e he := h.builds e (hperm.mem_iff.2 he)
  short e k hk := h.short e k (hk.of_subset hperm.symm.subset)

theorem Builds.unique {d d' : Definitions} (h : e.Builds db d) (h' : e.Builds db d') : d = d' := by
  obtain ⟨b, hb, rfl⟩ := h
  obtain ⟨b', hb', rfl⟩ := h'
  rw [Except.ok.inj (hb.symm.trans hb')]

/-- The definitions that an entry builds are those that it lists. -/
theorem Builds.describes {d : Definitions} (h : e.Builds db d) :
    e.Describes db.property d.consolidate := by
  obtain ⟨b, hb, rfl⟩ := h
  exact describes_of_addDefinitions ⟨rfl, rfl⟩ rfl hb

/-- What two orders of the same entries store. -/
theorem Stocked.get?_perm {entries' : List SchemaEntry} {room' : Nat} {db' : Database}
    (h : Stocked entries start room db) (h' : Stocked entries' start room' db')
    (hperm : entries.Perm entries') (hnames : (entries.map (·.name)).Nodup)
    (hsame : ∀ e ∈ entries, db'.store.schemas.contains e.name ↔ db.store.schemas.contains e.name)
    (n : String) : (db'.store.schemas.get? n).map (fun b => (b.base, b.definitions)) =
      (db.store.schemas.get? n).map fun b => (b.base, b.definitions) := by
  cases hb : db.store.schemas.get? n with
  | none =>
    cases hb' : db'.store.schemas.get? n with
    | none => rfl
    | some b' =>
      obtain ⟨e, he, rfl, -⟩ := h'.stored n b' hb'
      have hold := (hsame e (hperm.mem_iff.2 he)).1 (SortedMap.contains_iff.2 ⟨b', hb'⟩)
      rw [SortedMap.contains, hb] at hold
      cases hold
  | some b =>
    obtain ⟨e, he, rfl, id, d, -, hd, rfl, -⟩ := h.stored n b hb
    have hnew := (hsame e he).2 (SortedMap.contains_iff.2 ⟨_, hb⟩)
    obtain ⟨b', hb'⟩ := SortedMap.contains_iff.1 hnew
    obtain ⟨e', he', hname, id', d', -, hd', rfl, -⟩ := h'.stored e.name b' hb'
    obtain rfl := eq_of_name hnames (hperm.mem_iff.2 he') he hname
    obtain rfl := hd.unique hd'
    rw [hb']
    rfl

theorem loadSchemas_eq_ok_iff (hdb : Vacant db) (hentries : Wellformed entries db)
    (hroom : db.store.lastId.toNat + entries.length < 2 ^ 64) :
    (loadSchemas entries db).result = .ok () ↔ ∀ e ∈ entries, e.IsRooted entries := by
  obtain ⟨-, -, hresult⟩ := loadSchemas_eq hdb hentries hroom
  rw [hresult]
  split_ifs with hall
  · exact iff_of_true rfl hall
  · exact iff_of_false nofun hall

/-- The order of the entries does not matter. -/
theorem loadSchemas_perm (hdb : Vacant db) (hentries : Wellformed entries db)
    (hroom : db.store.lastId.toNat + entries.length < 2 ^ 64) {entries' : List SchemaEntry}
    (hperm : entries.Perm entries') :
    ((loadSchemas entries' db).result = .ok () ↔ (loadSchemas entries db).result = .ok ()) ∧
    ∀ n, ((loadSchemas entries' db).state.store.schemas.get? n).map
        (fun b => (b.base, b.definitions)) =
      ((loadSchemas entries db).state.store.schemas.get? n).map fun b => (b.base, b.definitions) := by
  have hentries' := hentries.perm hperm
  have hroom' : db.store.lastId.toNat + entries'.length < 2 ^ 64 := by rwa [← hperm.length_eq]
  obtain ⟨⟨room, hstocked⟩, hstored, -⟩ := loadSchemas_eq hdb hentries hroom
  obtain ⟨⟨room', hstocked'⟩, hstored', -⟩ := loadSchemas_eq hdb hentries' hroom'
  constructor
  · rw [loadSchemas_eq_ok_iff hdb hentries hroom, loadSchemas_eq_ok_iff hdb hentries' hroom']
    simp only [isRooted_perm hperm, hperm.mem_iff]
  · refine hstocked.get?_perm hstocked' hperm hentries.names fun e he => ?_
    rw [hstored e he, hstored' e (hperm.mem_iff.1 he), isRooted_perm hperm]

end SchemaEntry

open SchemaEntry

open Classical in
/-- The entries are stored from which base names lead to an entry without base, with their bases and
the definitions that they list, each after its base; nothing else changes. It is a success if these are
all entries, and otherwise the others are reported in the order of the list. In any order of the entries
the result is the same. -/
theorem loadSchemas_exact {db : Database} {entries : List SchemaEntry} (hdb : Vacant db)
    (hentries : Wellformed entries db) (hroom : db.store.lastId.toNat + entries.length < 2 ^ 64) :
    let o := loadSchemas entries db
    ((∀ e ∈ entries, e.IsRooted entries) → o.result = .ok ()) ∧
    (¬(∀ e ∈ entries, e.IsRooted entries) → o.result =
      .error (.basesMissing ((entries.filter fun e => ¬e.IsRooted entries).map (·.name)))) ∧
    (∀ n, o.state.store.schemas.contains n ↔ ∃ e ∈ entries, e.name = n ∧ e.IsRooted entries) ∧
    (∀ e ∈ entries, ∀ b, o.state.store.schemas.get? e.name = some b →
      (∃ id d, e.Builds db d ∧ b = e.stored db.store.database id d) ∧
      e.Describes db.property b.definitions ∧
      ∀ m, e.base = some m → ∃ c, o.state.store.schemas.get? m = some c ∧ StoredBefore c b) ∧
    (∃ lastId schemas cache,
      o.state = (db.withStore { db.store with lastId, schemas }).withCache cache) ∧
    ∀ entries', entries.Perm entries' →
      let o' := loadSchemas entries' db
      (o'.result = .ok () ↔ o.result = .ok ()) ∧
      ∀ n, (o'.state.store.schemas.get? n).map (fun b => (b.base, b.definitions)) =
        (o.state.store.schemas.get? n).map fun b => (b.base, b.definitions) := by
  intro o
  obtain ⟨⟨room, hstocked⟩, hstored, hresult⟩ := loadSchemas_eq hdb hentries hroom
  refine ⟨fun hall => by rw [hresult, if_pos hall], fun hnot => by rw [hresult, if_neg hnot],
    fun n => ⟨fun hn => ?_, ?_⟩, fun e he b hb => ?_, hstocked.frame,
    fun entries' => loadSchemas_perm hdb hentries hroom⟩
  · obtain ⟨b, hb⟩ := SortedMap.contains_iff.1 hn
    obtain ⟨e, he, rfl, -⟩ := hstocked.stored n b hb
    exact ⟨e, he, rfl, (hstored e he).1 hn⟩
  · rintro ⟨e, he, rfl, hrooted⟩
    exact (hstored e he).2 hrooted
  · obtain ⟨e', he', hname, id, d, -, hd, rfl, -⟩ := hstocked.stored _ b hb
    obtain rfl := eq_of_name hentries.names he' he hname
    exact ⟨⟨id, d, hd, rfl⟩, hd.describes, fun m hm => hstocked.ordered _ _ m hb hm⟩

def sampleEntry (name : String) (base : Option String) (n : UInt32) : SchemaEntry where
  name
  base
  attributes := []
  series := [{
    number := n
    name := some name
    kind := some "float"
    timeDomain := none
    description := none
    erasing := false
    attributes := [] }]

def sampleEntries : List SchemaEntry := [
  sampleEntry "quoted" (some "priced") 2,
  sampleEntry "orphan" (some "nowhere") 3,
  sampleEntry "priced" none 1,
  sampleEntry "left" (some "right") 4,
  sampleEntry "right" (some "left") 5]

def sampleEmptied : Database := .fresh ⟨1⟩ 1 Nat.one_pos {} {}

theorem loadSchemas_exact_sample :
    Vacant sampleEmptied ∧ Wellformed sampleEntries sampleEmptied ∧
      sampleEmptied.store.lastId.toNat + sampleEntries.length < 2 ^ 64 ∧
      (loadSchemas sampleEntries sampleEmptied).result =
        .error (.basesMissing ["orphan", "left", "right"]) ∧
      (loadSchemas sampleEntries sampleEmptied).state.store.schemas.contains "quoted" := by
  have hdb : Vacant sampleEmptied :=
    vacant_of_sound (Database.sound_fresh (by decide) 1 Nat.one_pos {} {}) rfl
  have hnames : (sampleEntries.map (·.name)).Nodup := by decide
  have hbuilds : ∀ name base n, ∃ d, (sampleEntry name base n).Builds sampleEmptied d := by
    intro name base n
    exact ⟨_, _, rfl, rfl⟩
  have hentries : Wellformed sampleEntries sampleEmptied := by
    refine ⟨hnames, ?_, fun e k h => (h.le_length hnames).trans (by decide)⟩
    simp only [sampleEntries, List.forall_mem_cons]
    exact ⟨hbuilds .., hbuilds .., hbuilds .., hbuilds .., hbuilds .., List.forall_mem_nil _⟩
  have hroom : sampleEmptied.store.lastId.toNat + sampleEntries.length < 2 ^ 64 := by decide
  have hbase : Rooted sampleEntries (sampleEntry "priced" none 1) 1 :=
    .root (by simp [sampleEntries]) rfl
  have hpriced : (sampleEntry "priced" none 1).IsRooted sampleEntries := ⟨1, hbase⟩
  have hquoted : (sampleEntry "quoted" (some "priced") 2).IsRooted sampleEntries :=
    ⟨2, .based (by simp [sampleEntries]) rfl hbase⟩
  have horphan : ¬(sampleEntry "orphan" (some "nowhere") 3).IsRooted sampleEntries :=
    not_isRooted_of_missing rfl (by decide)
  have hright : Leads sampleEntries (sampleEntry "left" (some "right") 4)
      (sampleEntry "right" (some "left") 5) := ⟨by simp [sampleEntries], rfl⟩
  have hback : Leads sampleEntries (sampleEntry "right" (some "left") 5)
      (sampleEntry "left" (some "right") 4) := ⟨by simp [sampleEntries], rfl⟩
  have hfirst := not_isRooted_of_loop hnames (.tail (.single hright) hback)
  have hsecond := not_isRooted_of_loop hnames (.tail (.single hback) hright)
  obtain ⟨-, herror, hstored, -⟩ := loadSchemas_exact hdb hentries hroom
  refine ⟨hdb, hentries, hroom, ?_, (hstored "quoted").2 ⟨_, by simp [sampleEntries], rfl, hquoted⟩⟩
  rw [herror fun hall => horphan (hall _ (by simp [sampleEntries]))]
  generalize IsRooted sampleEntries = rooted at hpriced hquoted horphan hfirst hsecond
  simp only [sampleEntries, List.filter, hpriced, hquoted, horphan, hfirst, hsecond, not_true_eq_false,
    not_false_eq_true, decide_true, decide_false]
  rfl

end ChronicleMeta
