import ChronicleMeta.Proofs.Catalog.Entry
import ChronicleMeta.Proofs.Database.Changes
import ChronicleMeta.Proofs.Database.Frame

/-!
The rounds in which the schemas of a catalog are loaded. A round stores the entries whose bases are
stored, each after its base, and the last one leaves those that wait for a base that never comes.
-/

namespace ChronicleMeta

namespace SchemaEntry

variable {entries : List SchemaEntry} {entry e : SchemaEntry} {k : Nat}

/-- So many entries of the list, the entry among them, are met when base names are followed to one
without base. -/
inductive Rooted (entries : List SchemaEntry) : SchemaEntry → Nat → Prop
  | root {entry : SchemaEntry} (hmem : entry ∈ entries) (hbase : entry.base = none) :
    Rooted entries entry 1
  | based {entry base : SchemaEntry} {k : Nat} (hmem : entry ∈ entries)
      (hbase : entry.base = some base.name) (h : Rooted entries base k) : Rooted entries entry (k + 1)

theorem Rooted.mem (h : Rooted entries entry k) : entry ∈ entries := by
  cases h <;> assumption

theorem Rooted.of_subset {entries' : List SchemaEntry} (h : Rooted entries entry k)
    (hsub : entries ⊆ entries') : Rooted entries' entry k := by
  induction h with
  | root hmem hbase => exact .root (hsub hmem) hbase
  | based hmem hbase _ ih => exact .based (hsub hmem) hbase ih

theorem eq_of_name (hnames : (entries.map (·.name)).Nodup) (hmem : entry ∈ entries) (he : e ∈ entries)
    (hname : entry.name = e.name) : entry = e := List.inj_on_of_nodup_map hnames hmem he hname

/-- From an entry with a base, one of the list leads on. -/
theorem Rooted.exists_base (h : Rooted entries entry k) {m : String} (hbase : entry.base = some m) :
    ∃ base ∈ entries, base.name = m ∧ ∃ j, k = j + 1 ∧ Rooted entries base j := by
  cases h with
  | root _ hnone => cases hnone.symm.trans hbase
  | based _ hnext h => exact ⟨_, h.mem, Option.some.inj (hnext.symm.trans hbase), _, rfl, h⟩

theorem Rooted.unique (hnames : (entries.map (·.name)).Nodup) (h : Rooted entries entry k) {k' : Nat}
    (h' : Rooted entries entry k') : k = k' := by
  induction h generalizing k' with
  | root _ hbase =>
    cases h' with
    | root => rfl
    | based _ hbase' => cases hbase.symm.trans hbase'
  | based _ hbase hnext ih =>
    obtain ⟨base, hmem, hname, j, rfl, hnext'⟩ := h'.exists_base hbase
    obtain rfl := eq_of_name hnames hmem hnext.mem hname
    rw [ih hnext']

/-- No entry is met twice, so that no more are met than there are. -/
theorem Rooted.le_length (hnames : (entries.map (·.name)).Nodup) (h : Rooted entries entry k) :
    k ≤ entries.length := by
  have hmet : ∃ met : List SchemaEntry, met.length = k ∧ met.Nodup ∧
      ∀ e ∈ met, ∃ j ≤ k, Rooted entries e j := by
    induction h with
    | @root entry hmem hbase =>
      exact ⟨[entry], rfl, List.nodup_singleton entry,
        List.forall_mem_singleton.2 ⟨1, Nat.le_refl 1, .root hmem hbase⟩⟩
    | @based entry base k hmem hbase h ih =>
      obtain ⟨met, hlength, hnodup, hmet⟩ := ih
      have hself : Rooted entries entry (k + 1) := .based hmem hbase h
      refine ⟨entry :: met, by rw [List.length_cons, hlength], List.nodup_cons.2 ⟨fun hagain => ?_, hnodup⟩,
        List.forall_mem_cons.2 ⟨⟨k + 1, Nat.le_refl _, hself⟩, fun e he => ?_⟩⟩
      · obtain ⟨j, hj, hrooted⟩ := hmet entry hagain
        have heq := hself.unique hnames hrooted
        omega
      · obtain ⟨j, hj, hrooted⟩ := hmet e he
        exact ⟨j, Nat.le_succ_of_le hj, hrooted⟩
  obtain ⟨met, rfl, hnodup, hmet⟩ := hmet
  have hsub : met ⊆ entries := fun e he => (hmet e he).elim fun _ hj => hj.2.mem
  exact (List.subperm_of_subset hnodup hsub).length_le

/-- Following base names from the entry leads to one without base. -/
def IsRooted (entries : List SchemaEntry) (entry : SchemaEntry) : Prop := ∃ k, Rooted entries entry k

/-- From an entry whose base is not listed no base names lead on. -/
theorem not_isRooted_of_missing {m : String} (hbase : entry.base = some m)
    (hm : m ∉ entries.map (·.name)) : ¬entry.IsRooted entries := by
  rintro ⟨k, h⟩
  obtain ⟨base, hmem, rfl, -⟩ := h.exists_base hbase
  exact hm (List.mem_map_of_mem hmem)

/-- The second entry is listed and is the base of the first. -/
def Leads (entries : List SchemaEntry) (entry base : SchemaEntry) : Prop :=
  base ∈ entries ∧ entry.base = some base.name

theorem Rooted.of_leads (hnames : (entries.map (·.name)).Nodup) (h : Rooted entries entry k)
    (hleads : Relation.TransGen (Leads entries) entry e) : ∃ j < k, Rooted entries e j := by
  induction hleads with
  | single hstep =>
    obtain ⟨base, hmem, hname, j, rfl, hrooted⟩ := h.exists_base hstep.2
    obtain rfl := eq_of_name hnames hmem hstep.1 hname
    exact ⟨j, Nat.lt_succ_self j, hrooted⟩
  | tail _ hstep ih =>
    obtain ⟨i, hi, hmid⟩ := ih
    obtain ⟨base, hmem, hname, j, rfl, hrooted⟩ := hmid.exists_base hstep.2
    obtain rfl := eq_of_name hnames hmem hstep.1 hname
    exact ⟨j, by omega, hrooted⟩

/-- Base names that lead back to where they began never lead to an entry without base. -/
theorem not_isRooted_of_loop (hnames : (entries.map (·.name)).Nodup)
    (hloop : Relation.TransGen (Leads entries) entry entry) : ¬entry.IsRooted entries := by
  rintro ⟨k, h⟩
  obtain ⟨j, hlt, hj⟩ := h.of_leads hnames hloop
  have heq := h.unique hnames hj
  omega

/-- The first schema was stored before the second. -/
def StoredBefore (b c : Blueprint) : Prop :=
  ∃ i j, b.surrogate.id? = some i ∧ c.surrogate.id? = some j ∧ i.toNat < j.toNat

/-- What has become of the database `start` into which entries are loaded, with ids left for `room` more.
Nothing has changed but the schemas, which are those of entries, each stored after its base. -/
structure Stocked (entries : List SchemaEntry) (start : Database) (room : Nat) (db : Database) :
    Prop where
  frame : ∃ lastId schemas cache,
    db = (start.withStore { start.store with lastId, schemas }).withCache cache
  property_eq : ∀ n, db.property n = start.property n
  registered : Registered start.store.database .schema db.store.lastId Blueprint.name
    Blueprint.surrogate db.store.schemas
  stored : ∀ n b, db.store.schemas.get? n = some b → ∃ e ∈ entries, e.name = n ∧
    ∃ id d k, e.Builds start d ∧ b = e.stored start.store.database id d ∧ Rooted entries e k ∧
      db.store.Height (some n) k
  ordered : ∀ n b m, db.store.schemas.get? n = some b → b.base = some m →
    ∃ c, db.store.schemas.get? m = some c ∧ StoredBefore c b
  room : db.store.lastId.toNat + room < 2 ^ 64

/-- A database without schemas, in which schemas may be created and changed, and in which what is cached
are the properties that are stored. -/
structure Vacant (db : Database) : Prop where
  schemas_eq : db.store.schemas = ∅
  create : db.granted .create (.pending db.store.database .schema)
  modify : ∀ id, db.granted .modify (.committed db.store.database .schema id)
  property_eq : ∀ n, db.property n = db.store.readProperty n

/-- What is asked of the entries: that they have names of their own, that their definitions can be made,
and that no chain is too long. -/
structure Wellformed (entries : List SchemaEntry) (db : Database) : Prop where
  names : (entries.map (·.name)).Nodup
  builds : ∀ e ∈ entries, ∃ d, e.Builds db d
  short : ∀ e k, Rooted entries e k → k ≤ ({} : ResolutionConfig).maxDepth

variable {start db : Database} {room : Nat} {pending : List SchemaEntry}

/-- A sound database without schemas. -/
theorem vacant_of_sound (h : Database.Sound db) (hempty : db.store.schemas = ∅) : Vacant db where
  schemas_eq := hempty
  create := by rw [h.granted]; rfl
  modify id := by rw [h.granted]; rfl
  property_eq := h.property_eq

/-- What every entry keeps, loaded or not, they keep together. -/
theorem holds_each {α : Type} {I : Database → Prop} {load : α → Database → Loaded}
    (hload : ∀ x db, I db → I (load x db).state) (xs : List α) (h : I db) :
    I (Loaded.each load xs db).state := by
  induction xs generalizing db with
  | nil => exact h
  | cons x xs ih =>
    have hx := hload x db h
    exact Database.holds_andThen hx fun _ => ih hx

/-- What new value types and new properties keep, is kept until the loading of a catalog comes to the
schemas. -/
theorem holds_prepared {I : Database → Prop}
    (hvalueType : ∀ db t, I db → I (db.onStore (·.createValueType t)).state)
    (hproperty : ∀ db p, I db → I (db.createProperty p).state) (h : I db)
    (valueTypes : List ValueTypeEntry) (properties : List PropertyEntry) :
    I ((Loaded.each ValueTypeEntry.load valueTypes db).andThen fun () =>
      Loaded.each PropertyEntry.load properties).state := by
  have hvalueTypes : I (Loaded.each ValueTypeEntry.load valueTypes db).state :=
    holds_each (fun _ db h => Database.holds_whenOk h fun t => hvalueType db t h) valueTypes h
  have hproperties : ∀ (entry : PropertyEntry) db, I db → I (entry.load db).state := by
    intro entry db h
    unfold PropertyEntry.load
    cases db.valueType? entry.valueType with
    | none => exact h
    | some valueType => exact hproperty db _ h
  exact Database.holds_andThen hvalueTypes fun _ => holds_each hproperties properties hvalueTypes

/-- Where the loading of a catalog comes to the schemas, there are still none, whether or not all value
types and properties could be loaded. -/
theorem vacant_of_loaded (h : Database.Sound db) (hempty : db.store.schemas = ∅)
    (valueTypes : List ValueTypeEntry) (properties : List PropertyEntry) :
    Vacant ((Loaded.each ValueTypeEntry.load valueTypes db).andThen fun () =>
      Loaded.each PropertyEntry.load properties).state := by
  have hvalueType : ∀ db t, Database.Sound db ∧ db.store.schemas = ∅ →
      Database.Sound (db.onStore (·.createValueType t)).state ∧
        (db.onStore (·.createValueType t)).state.store.schemas = ∅ := fun db t ⟨h, hempty⟩ =>
    ⟨(h.onStore (·.createValueType t) (h.store.createValueType t)).sound,
      (Store.schemas_createValueType db.store t).trans hempty⟩
  have hproperty : ∀ db p, Database.Sound db ∧ db.store.schemas = ∅ →
      Database.Sound (db.createProperty p).state ∧ (db.createProperty p).state.store.schemas = ∅ :=
    fun db p ⟨h, hempty⟩ =>
      ⟨(h.createProperty p).sound, (Database.schemas_createProperty db p).trans hempty⟩
  obtain ⟨hsound, hnone⟩ :=
    holds_prepared (I := fun db => Database.Sound db ∧ db.store.schemas = ∅) hvalueType hproperty
      ⟨h, hempty⟩ valueTypes properties
  exact vacant_of_sound hsound hnone

theorem Vacant.stocked (h : Vacant start) (hroom : start.store.lastId.toNat + room < 2 ^ 64) :
    Stocked entries start room start where
  frame := ⟨_, _, _, rfl⟩
  property_eq _ := rfl
  registered := h.schemas_eq ▸ registered_empty
  stored n b hb := by simp [h.schemas_eq] at hb
  ordered n b m hb := by simp [h.schemas_eq] at hb
  room := hroom

/-- An entry whose base is stored can be loaded. -/
theorem Stocked.loadable (h : Stocked entries start (room + 1) db) (hstart : Vacant start)
    (hentries : Wellformed entries start) (he : e ∈ entries) (hready : e.isReady db = true)
    (hfree : db.store.schemas.get? e.name = none) :
    ∃ d k, e.Builds start d ∧ e.Loadable db d k ∧ Rooted entries e (k + 1) := by
  obtain ⟨d, hd⟩ := hentries.builds e he
  obtain ⟨k, hrooted, hheight⟩ : ∃ k, Rooted entries e (k + 1) ∧ db.store.Height e.base k := by
    cases hbase : e.base with
    | none => exact ⟨0, .root he hbase, .done⟩
    | some m =>
      have hstored : (db.store.schema? m).isSome := by simpa [isReady, hbase] using hready
      obtain ⟨b, hb⟩ := Option.isSome_iff_exists.1 hstored
      obtain ⟨base, -, rfl, -, -, k, -, -, hrooted, hheight⟩ := h.stored m b hb
      exact ⟨k, .based he hbase hrooted, hheight⟩
  obtain ⟨hframe, hproperty, hregistered, -, -, hroom⟩ := h
  obtain ⟨lastId, schemas, cache, rfl⟩ := hframe
  refine ⟨d, k, hd, ?_, hrooted⟩
  exact {
    create := hstart.create
    modify := hstart.modify _
    schemas := hregistered
    room := Nat.lt_of_le_of_lt (by omega) hroom
    free := hfree
    height := hheight
    short := hentries.short e _ hrooted
    builds := hd.congr rfl hproperty }

/-- A schema is stored after its base. -/
theorem Stocked.ordered_put {d : Definitions} (h : Stocked entries start (room + 1) db)
    (hload : e.Loadable db d k) {n m : String} {b : Blueprint}
    (hb : (e.put db d).store.schemas.get? n = some b) (hbase : b.base = some m) :
    ∃ c, (e.put db d).store.schemas.get? m = some c ∧ StoredBefore c b := by
  rcases eq_or_ne n e.name with rfl | hn
  · obtain rfl := Option.some.inj (hb.symm.trans (e.get?_put db d))
    have hheight : db.store.Height (some m) k := hbase ▸ hload.height
    cases hheight with
    | @next _ c _ hc _ =>
      obtain ⟨i, hi, hle⟩ := h.registered.owned m c hc
      have hnext := Store.toNat_nextId hload.room
      exact ⟨c, hload.get?_put_of_get? d hc, i, db.store.nextId, by rw [hi]; rfl, rfl, by omega⟩
  · rw [get?_put_of_ne db d hn] at hb
    obtain ⟨c, hc, hbefore⟩ := h.ordered n b m hb hbase
    exact ⟨c, hload.get?_put_of_get? d hc, hbefore⟩

/-- Loading an entry keeps what has been stored. -/
theorem Stocked.put {d : Definitions} (h : Stocked entries start (room + 1) db) (hstart : Vacant start)
    (hd : e.Builds start d) (hload : e.Loadable db d k) (hrooted : Rooted entries e (k + 1))
    {cache : Cache} (hcache : cache = db.cache ∨ cache = db.cache.clear) :
    Stocked entries start room ((e.put db d).withCache cache) := by
  obtain ⟨lastId, schemas, cache₀, hframe⟩ := h.frame
  have hdatabase : db.store.database = start.store.database := by rw [hframe]; rfl
  refine ⟨⟨db.store.nextId, (e.put db d).store.schemas, cache, ?_⟩, fun n => ?_, ?_,
    fun n b hb => ?_, fun n b m hb hbase => h.ordered_put hload hb hbase, ?_⟩
  · rw [hframe]
    rfl
  · obtain rfl | rfl := hcache
    · exact h.property_eq n
    · have hread : (e.put db d).store.readProperty n = start.store.readProperty n := by
        rw [hframe]
        rfl
      have hcleared : (e.put db d).clearCache.CachesStored := Database.cachesStored_of_uncached rfl
      exact (hcleared.property_eq n).trans (hread.trans (hstart.property_eq n).symm)
  · exact hdatabase ▸ hload.registered_put d
  · rcases eq_or_ne n e.name with rfl | hn
    · obtain rfl := Option.some.inj (hb.symm.trans (e.get?_put db d))
      rw [hdatabase]
      exact ⟨e, hrooted.mem, rfl, _, d, _, hd, rfl, hrooted, hload.height_self d⟩
    · have hold := (get?_put_of_ne db d hn).symm.trans hb
      obtain ⟨e', he', hname, id, d', j, hd', hb', hrooted', hheight⟩ := h.stored n b hold
      exact ⟨e', he', hname, id, d', j, hd', hb', hrooted', hload.height_put d hheight⟩
  · have hnext := Store.toNat_nextId hload.room
    have hroom := h.room
    change db.store.nextId.toNat + room < 2 ^ 64
    omega

/-- One entry is loaded. -/
theorem Stocked.load (h : Stocked entries start (room + 1) db) (hstart : Vacant start)
    (hentries : Wellformed entries start) (he : e ∈ entries) (hready : e.isReady db = true)
    (hfree : db.store.schemas.get? e.name = none) :
    ∃ db', e.load db = .ok db' () ∧ Stocked entries start room db' ∧
      ∀ n, db'.store.schemas.contains n ↔ db.store.schemas.contains n ∨ n = e.name := by
  obtain ⟨d, k, hd, hload, hrooted⟩ := h.loadable hstart hentries he hready hfree
  obtain ⟨cache, hcache, hdone⟩ := hload.load_eq_ok
  refine ⟨_, hdone, h.put hstart hd hload hrooted hcache, fun n => ?_⟩
  have hget : ((e.put db d).withCache cache).store.schemas.get? n = _ := SortedMap.get?_insert _ _ _ _
  rw [SortedMap.contains, hget, SortedMap.contains]
  split_ifs with hn <;> simp [hn]

theorem isReady_iff : entry.isReady db ↔ ∀ base, entry.base = some base → db.store.schemas.contains base := by
  cases hbase : entry.base <;> simp [isReady, hbase, Store.schema?, SortedMap.contains]

theorem get?_eq_none_of_contains {n : String} (h : ¬db.store.schemas.contains n) :
    db.store.schemas.get? n = none :=
  SortedMap.contains_eq_false_iff.1 (Bool.eq_false_iff.2 h)

/-- All entries are loaded whose bases are stored at the beginning of a round. -/
theorem Stocked.each {round : List SchemaEntry} (h : Stocked entries start (room + round.length) db)
    (hstart : Vacant start) (hentries : Wellformed entries start)
    (hnames : (round.map (·.name)).Nodup)
    (hround : ∀ e ∈ round, e ∈ entries ∧ e.isReady db ∧ ¬db.store.schemas.contains e.name) :
    ∃ db', Loaded.each (fun e db => (e.load db).within s!"schema {e.name}") round db = .ok db' () ∧
      Stocked entries start room db' ∧
      ∀ n, db'.store.schemas.contains n ↔ db.store.schemas.contains n ∨ n ∈ round.map (·.name) := by
  induction round generalizing db with
  | nil => exact ⟨db, rfl, h, fun n => by simp⟩
  | cons e round ih =>
    obtain ⟨hnew, hnames⟩ := List.nodup_cons.1 hnames
    obtain ⟨⟨he, hready, hfree⟩, hround⟩ := List.forall_mem_cons.1 hround
    obtain ⟨db₁, hload, hstocked, hcontains⟩ :=
      h.load hstart hentries he hready (get?_eq_none_of_contains hfree)
    have hround₁ : ∀ e' ∈ round, e' ∈ entries ∧ e'.isReady db₁ ∧
        ¬db₁.store.schemas.contains e'.name := by
      intro e' he'
      obtain ⟨hmem, hready', hfree'⟩ := hround e' he'
      refine ⟨hmem, isReady_iff.2 fun base hbase => ?_, fun hstored => ?_⟩
      · exact (hcontains base).2 (.inl (isReady_iff.1 hready' base hbase))
      · rcases (hcontains e'.name).1 hstored with hold | hname
        · exact hfree' hold
        · have hagain := List.mem_map_of_mem (f := (·.name)) he'
          rw [hname] at hagain
          exact hnew hagain
    obtain ⟨db', heach, hstocked', hcontains'⟩ := ih hstocked hnames hround₁
    refine ⟨db', ?_, hstocked', fun n => ?_⟩
    · rw [Loaded.each, hload]
      exact heach
    · rw [hcontains', hcontains, List.map_cons, List.mem_cons, or_assoc]

/-- After a round the entries that were waiting are those that are not stored. -/
theorem waiting_eq_filter {db' : Database} (hnames : (entries.map (·.name)).Nodup)
    (hpending : pending = entries.filter fun e => !db.store.schemas.contains e.name)
    (hcontains : ∀ n, db'.store.schemas.contains n ↔
      db.store.schemas.contains n ∨ n ∈ (pending.filter (·.isReady db)).map (·.name)) :
    waiting db pending = entries.filter fun e => !db'.store.schemas.contains e.name := by
  have hstored : ∀ e ∈ entries, db'.store.schemas.contains e.name =
      (db.store.schemas.contains e.name || e.isReady db) := by
    intro e he
    rw [Bool.eq_iff_iff, Bool.or_eq_true]
    refine (hcontains e.name).trans (or_congr_right' fun hfree => ⟨fun hmem => ?_, fun hready => ?_⟩)
    · obtain ⟨e', he', hname⟩ := List.mem_map.1 hmem
      obtain ⟨he', hready⟩ := List.mem_filter.1 he'
      rw [hpending] at he'
      obtain rfl := eq_of_name hnames (List.mem_filter.1 he').1 he hname
      exact hready
    · have hpend : e ∈ pending := by
        rw [hpending]
        exact List.mem_filter.2 ⟨he, by simpa using hfree⟩
      exact List.mem_map_of_mem (f := (·.name)) (List.mem_filter.2 ⟨hpend, hready⟩)
  rw [waiting, hpending, List.filter_filter]
  refine List.filter_congr fun e he => ?_
  rw [hstored e he, Bool.not_or, Bool.and_comm]

/-- One round: what had a base is stored, and what was waiting is still to be loaded. -/
theorem Stocked.round (h : Stocked entries start pending.length db) (hstart : Vacant start)
    (hentries : Wellformed entries start)
    (hpending : pending = entries.filter fun e => !db.store.schemas.contains e.name) :
    ∃ db', Loaded.each (fun e db => (e.load db).within s!"schema {e.name}")
        (pending.filter (·.isReady db)) db = .ok db' () ∧
      Stocked entries start (waiting db pending).length db' ∧
      waiting db pending = entries.filter fun e => !db'.store.schemas.contains e.name := by
  have hsplit : pending.length =
      (waiting db pending).length + (pending.filter (·.isReady db)).length := by
    rw [Nat.add_comm]
    exact List.length_eq_length_filter_add _
  have hround : ∀ e ∈ pending.filter (·.isReady db), e ∈ entries ∧ e.isReady db ∧
      ¬db.store.schemas.contains e.name := by
    intro e he
    obtain ⟨he, hready⟩ := List.mem_filter.1 he
    rw [hpending] at he
    obtain ⟨he, hfree⟩ := List.mem_filter.1 he
    exact ⟨he, hready, by simpa using hfree⟩
  have hnames : ((pending.filter (·.isReady db)).map (·.name)).Nodup := by
    rw [hpending]
    exact hentries.names.sublist ((List.filter_sublist.trans List.filter_sublist).map _)
  rw [hsplit] at h
  obtain ⟨db', heach, hstocked, hcontains⟩ := h.each hstart hentries hnames hround
  exact ⟨db', heach, hstocked, waiting_eq_filter hentries.names hpending hcontains⟩

/-- Where the loading ends: with all entries stored, or with some left that all wait for a base. -/
theorem Stocked.loadSchemas (h : Stocked entries start pending.length db) (hstart : Vacant start)
    (hentries : Wellformed entries start)
    (hpending : pending = entries.filter fun e => !db.store.schemas.contains e.name) :
    ∃ db' left, Stocked entries start left.length db' ∧
      left = entries.filter (fun e => !db'.store.schemas.contains e.name) ∧
      (∀ e ∈ left, e.isReady db' = false) ∧
      ChronicleMeta.loadSchemas pending db =
        if left.isEmpty then .ok db' () else .fail db' (.basesMissing (left.map (·.name))) := by
  induction hlength : pending.length using Nat.strong_induction_on generalizing pending db with
  | _ length ih =>
    by_cases hempty : pending.isEmpty
    · have hnil : pending = [] := List.isEmpty_iff.1 hempty
      refine ⟨db, pending, h, hpending, by simp [hnil], ?_⟩
      rw [ChronicleMeta.loadSchemas, if_pos hempty, if_pos hempty]
    by_cases hless : (waiting db pending).length < pending.length
    · obtain ⟨db₁, heach, hstocked, hwaiting⟩ := h.round hstart hentries hpending
      obtain ⟨db', left, hend, hleft, hnone, hrest⟩ :=
        ih _ (hlength ▸ hless) hstocked hwaiting rfl
      refine ⟨db', left, hend, hleft, hnone, ?_⟩
      rw [ChronicleMeta.loadSchemas, if_neg hempty, if_pos hless]
      dsimp only
      rw [heach]
      exact hrest
    · -- nothing is ready, so that everything is left
      have hall : waiting db pending = pending :=
        List.filter_sublist.eq_of_length_le (Nat.not_lt.1 hless)
      refine ⟨db, pending, h, hpending, fun e he => ?_, ?_⟩
      · rw [← hall] at he
        simpa using (List.mem_filter.1 he).2
      · rw [ChronicleMeta.loadSchemas, if_neg hempty, if_neg hless, if_neg hempty, hall]

end SchemaEntry

end ChronicleMeta
