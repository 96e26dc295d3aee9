import ChronicleMeta.Proofs.Database.Integrity
import ChronicleMeta.Proofs.Store.Depth
import ChronicleMeta.Proofs.Store.Representation

/-!
Deletion of schemas. A schema is deleted exactly if it is in no other chain and in no chronicle, and then
nothing else is lost: every schema that is left is still merged from the same chain.
-/

namespace ChronicleMeta

namespace Blueprint

variable {source source' : Source} {maxDepth : Nat}

/-- Walks meet the same schemas, and fail alike, where the names that they come by lead to the same. -/
theorem walk_agree {I : String → Prop} (hI : ∀ n, I n → source' n = source n)
    (hstep : ∀ n b m, I n → source n = .ok (some b) → b.base = some m → I m) {room : Nat} {start : String}
    {visited : List String} {walked : List Blueprint} {next : Option String}
    (hnext : ∀ n, next = some n → I n) :
    walk source' maxDepth start room visited walked next =
      walk source maxDepth start room visited walked next := by
  induction room generalizing visited walked next with
  | zero => cases next <;> rfl
  | succ room ih =>
    cases next with
    | none => rfl
    | some n =>
      rw [walk.eq_def, walk.eq_def source]
      dsimp only
      rw [hI n (hnext n rfl)]
      split_ifs
      · rfl
      · cases hn : source n with
        | error e => rfl
        | ok found =>
          cases found with
          | none => rfl
          | some b => exact ih fun m hm => hstep n b m (hnext n rfl) hn hm

theorem merge_agree {I : String → Prop} (hI : ∀ n, I n → source' n = source n)
    (hstep : ∀ n b m, I n → source n = .ok (some b) → b.base = some m → I m) {b : Blueprint}
    (hbase : ∀ n, b.base = some n → I n) : b.merge source' maxDepth = b.merge source maxDepth := by
  have hchain : b.chain source' maxDepth = b.chain source maxDepth := walk_agree hI hstep hbase
  rw [merge, hchain, merge]

end Blueprint

namespace Store

variable {s : Store} {n name : String} {b d : Blueprint}

/-- Where bases are followed from a name, the stored schemas met are those it leads to. -/
theorem mem_of_bases {next : Option String} {l : List Blueprint} (h : Blueprint.Bases s.source next l) :
    d ∈ l ↔ ∃ n k, next = some n ∧ Relation.ReflTransGen s.Extends n k ∧ s.schemas.get? k = some d := by
  induction h with
  | nil => simp
  | @cons n b l hb _ ih =>
    have hb : s.schemas.get? n = some b := Except.ok.inj hb
    rw [List.mem_cons, ih]
    constructor
    · rintro (rfl | ⟨m, k, hm, hmk, hk⟩)
      · exact ⟨n, n, rfl, .refl, hb⟩
      · exact ⟨n, k, rfl, .head ⟨b, hb, hm⟩ hmk, hk⟩
    · rintro ⟨_, k, ⟨⟩, hnk, hk⟩
      obtain rfl | ⟨m, ⟨b', hb', hm⟩, hmk⟩ := Relation.ReflTransGen.cases_head hnk
      · exact .inl (Option.some.inj (hk.symm.trans hb))
      · obtain rfl := Option.some.inj (hb.symm.trans hb')
        exact .inr ⟨m, k, hm, hmk, hk⟩

/-- The chain of a stored schema is made of the schemas that bases lead to from its name. -/
theorem mem_chain_iff (hb : s.schemas.get? n = some b) {maxDepth : Nat} {chain : List Blueprint}
    (h : b.chain s.source maxDepth = .ok chain) :
    d ∈ chain ↔ ∃ k, Relation.ReflTransGen s.Extends n k ∧ s.schemas.get? k = some d := by
  obtain ⟨l, rfl, hl⟩ := Blueprint.bases_of_walk h
  rw [List.singleton_append, mem_of_bases (.cons (congrArg Except.ok hb) hl)]
  simp

/-- The schema of the name is stored, no other stored schema has it in its base chain, and it is the
schema of no stored chronicle. -/
def Unused (s : Store) (name : String) : Prop :=
  ∃ b, s.schemas.get? name = some b ∧
    (∀ other, other ≠ name → ¬Relation.TransGen s.Extends other name) ∧
    ∀ fullName c, s.chronicles.get? fullName = some c → c.schema ≠ b.surrogate

/-- What does not lead to a name leads to the same schemas without it. -/
theorem merge_erase (hb : s.schemas.get? n = some b)
    (hnot : ¬Relation.TransGen s.Extends n name) (maxDepth : Nat) :
    b.merge { s with schemas := s.schemas.erase name }.source maxDepth = b.merge s.source maxDepth := by
  refine Blueprint.merge_agree (I := fun m => Relation.TransGen s.Extends n m) (fun m hm => ?_)
    (fun m c k hm hc hk => ?_) fun m hm => ?_
  · have hother : m ≠ name := fun heq => hnot (heq ▸ hm)
    exact congrArg Except.ok (by rw [schema?, SortedMap.get?_erase, if_neg hother]; rfl)
  · exact hm.tail ⟨c, Except.ok.inj hc, hk⟩
  · exact .single ⟨b, hb, hm⟩

end Store

namespace Database

variable {db : Database} {name : String} {b : Blueprint}

/-- Every stored base chain exists and is of no more schemas than the settings allow. -/
def Followable (db : Database) : Prop :=
  ∀ n b, db.store.schemas.get? n = some b → ∃ k ≤ db.resolution.maxDepth, db.store.Height (some n) k

theorem Followable.chain (h : db.Followable) (ht : db.store.Tables) {n : String}
    (hb : db.store.schemas.get? n = some b) :
    ∃ chain, b.chain db.store.source db.resolution.maxDepth = .ok chain := by
  obtain ⟨k, hle, hk⟩ := h n b hb
  obtain ⟨chain, hchain, -⟩ := hk.chain_eq_ok hb (ht.schemas.name_eq n b hb) hle
  exact ⟨chain, hchain⟩

theorem agrees_self (ht : db.store.Tables) (hb : db.store.schemas.get? name = some b) :
    b.surrogate.agrees b.surrogate := by
  obtain ⟨id, hid, -⟩ := ht.schemas.owned name b hb
  exact Surrogate.agrees_iff.2 ⟨rfl, ⟨_, _, _⟩, by rw [hid]; rfl⟩

/-- A chain has a stored schema in it exactly if the name of the schema is led to. -/
theorem any_agrees_iff (ht : db.store.Tables) (hb : db.store.schemas.get? name = some b) {other : String}
    {c : Blueprint} (hc : db.store.schemas.get? other = some c) {maxDepth : Nat} {chain : List Blueprint}
    (hchain : c.chain db.store.source maxDepth = .ok chain) :
    (∃ d ∈ chain, d.surrogate.agrees b.surrogate) ↔ Relation.ReflTransGen db.store.Extends other name := by
  constructor
  · rintro ⟨d, hd, hagrees⟩
    obtain ⟨k, hk, hget⟩ := (Store.mem_chain_iff hc hchain).1 hd
    exact ht.schemas.unique k name d b hget hb (Surrogate.agrees_iff.1 hagrees).1 ▸ hk
  · intro h
    exact ⟨b, (Store.mem_chain_iff hc hchain).2 ⟨name, h, hb⟩, agrees_self ht hb⟩

/-- Where all chains can be followed, the search for a dependent schema ends, and it finds one if there
is one. -/
theorem dependent?_eq_none_iff (h : db.Followable) (ht : db.store.Tables)
    (hb : db.store.schemas.get? name = some b) {names : List String}
    (hnames : ∀ n ∈ names, ∃ c, db.store.schemas.get? n = some c) :
    db.dependent? name b.surrogate names = .ok none ↔
      ∀ other ∈ names, other ≠ name → ¬Relation.TransGen db.store.Extends other name := by
  induction names with
  | nil => simp [dependent?]
  | cons other names ih =>
    obtain ⟨⟨c, hc⟩, hrest⟩ := List.forall_mem_cons.1 hnames
    rw [dependent?, List.forall_mem_cons]
    by_cases hname : other = name
    · rw [if_pos hname, ih hrest]
      exact ⟨fun hall => ⟨fun hne => absurd hname hne, hall⟩, And.right⟩
    · obtain ⟨chain, hchain⟩ := h.chain ht hc
      have hload : db.loadSchema other = .ok c := by rw [loadSchema, Store.schema?, hc]
      have hdependencies : c.dependencies db.store.source db.resolution.maxDepth =
          .ok (chain.map (·.surrogate)) := by
        rw [Blueprint.dependencies, hchain]
        rfl
      have hany : (chain.map (·.surrogate)).any (·.agrees b.surrogate) ↔
          Relation.TransGen db.store.Extends other name := by
        rw [List.any_map, List.any_eq_true]
        refine (any_agrees_iff ht hb hc hchain).trans ?_
        rw [Relation.reflTransGen_iff_eq_or_transGen]
        exact ⟨fun hled => hled.resolve_left fun heq => hname heq.symm, .inr⟩
      rw [if_neg hname, hload, ok_bind, hdependencies, ok_bind]
      split_ifs with hfound
      · exact ⟨nofun, fun hall => absurd (hany.1 hfound) (hall.1 hname)⟩
      · rw [ih hrest]
        exact ⟨fun hall => ⟨fun _ hled => hfound (hany.2 hled), hall⟩, And.right⟩

theorem schema?_of_deletableSchema (h : db.deletableSchema name = .ok b) :
    db.store.schemas.get? name = some b := by
  obtain ⟨b', hload, h⟩ := bind_eq_ok_iff.1 h
  obtain ⟨_, -, h⟩ := bind_eq_ok_iff.1 h
  obtain ⟨dependent, -, h⟩ := bind_eq_ok_iff.1 h
  cases dependent with
  | some other => cases h
  | none =>
    dsimp only at h
    split at h
    · cases h
    · exact pure_eq_ok_iff.1 h ▸ schema?_of_loadSchema hload

/-- No chronicle is found to use a schema exactly if none has its surrogate. -/
theorem head?_chroniclesUsing_eq_none_iff (ht : db.store.Tables)
    (hb : db.store.schemas.get? name = some b) : (db.store.chroniclesUsing b.surrogate).head? = none ↔
      ∀ fullName c, db.store.chronicles.get? fullName = some c → c.schema ≠ b.surrogate := by
  rw [List.head?_eq_none_iff, Store.chroniclesUsing, List.map_eq_nil_iff, List.filter_eq_nil_iff]
  constructor
  · intro hnot fullName c hc heq
    exact hnot c (SortedMap.mem_values_iff.2 ⟨fullName, hc⟩) (heq ▸ agrees_self ht hb)
  · intro hall c hc hagrees
    obtain ⟨fullName, hget⟩ := SortedMap.mem_values_iff.1 hc
    exact hall fullName c hget (Surrogate.agrees_iff.1 hagrees).1

/-- With permission exactly what nothing uses may be deleted. -/
theorem exists_deletableSchema_iff (h : db.Followable) (ht : db.store.Tables)
    (hgranted : ∀ b, db.store.schemas.get? name = some b → db.granted .delete b.surrogate) :
    (∃ b, db.deletableSchema name = .ok b) ↔ db.store.Unused name := by
  have hstored : ∀ n ∈ db.store.schemasMatching "*", ∃ c, db.store.schemas.get? n = some c := by
    intro n hn
    obtain ⟨e, he, rfl⟩ := List.mem_map.1 (List.mem_filter.1 hn).1
    exact ⟨e.2, SortedMap.mem_toList_iff.1 he⟩
  constructor
  · rintro ⟨b, hb⟩
    have hget := schema?_of_deletableSchema hb
    obtain ⟨b', hload, hb⟩ := bind_eq_ok_iff.1 hb
    obtain rfl := Option.some.inj (hget.symm.trans (schema?_of_loadSchema hload))
    obtain ⟨_, -, hb⟩ := bind_eq_ok_iff.1 hb
    obtain ⟨dependent, hdependent, hb⟩ := bind_eq_ok_iff.1 hb
    cases dependent with
    | some other => cases hb
    | none =>
      cases hused : (db.store.chroniclesUsing b.surrogate).head? with
      | some chronicle =>
        simp only [hused] at hb
        cases hb
      | none =>
        refine ⟨b, hget, fun other hne hled => ?_, (head?_chroniclesUsing_eq_none_iff ht hget).1 hused⟩
        obtain ⟨_, ⟨c, hc, -⟩, -⟩ := Relation.TransGen.head'_iff.1 hled
        have hmem : other ∈ db.store.schemasMatching "*" :=
          List.mem_filter.2 ⟨List.mem_map_of_mem (SortedMap.mem_toList_iff.2 hc),
            Text.matchesPattern_star other⟩
        exact (dependent?_eq_none_iff h ht hget hstored).1 hdependent other hmem hne hled
  · rintro ⟨b, hget, hother, hused⟩
    have hload : db.loadSchema name = .ok b := by rw [loadSchema, Store.schema?, hget]
    have hcheck : db.check .delete b.surrogate = .ok () := if_pos (hgranted b hget)
    have hdependent : db.dependent? name b.surrogate (db.store.schemasMatching "*") = .ok none :=
      (dependent?_eq_none_iff h ht hget hstored).2 fun other _ => hother other
    refine ⟨b, ?_⟩
    rw [deletableSchema, hload, ok_bind, hcheck, ok_bind, hdependent, ok_bind]
    simp only [(head?_chroniclesUsing_eq_none_iff ht hget).2 hused]
    rfl

/-- Databases that arise, whatever they cache and whatever their settings are: over an empty store, and
after a request, to the database or directly to its store. -/
inductive Arises : Database → Prop
  | opened (database : DatabaseId) (cache : Cache) (granted : Permissions) (naming : Naming)
      (resolution : ResolutionConfig) :
      Arises { store := { database }, cache, granted, naming, resolution }
  | served {db : Database} (h : Arises db) (r : Request) : Arises (db.serve r).state
  | stored {db : Database} (h : Arises db) (r : Store.Request) :
      Arises (db.withStore (db.store.serve r))
  | configured {db : Database} (h : Arises db) (cache : Cache) (granted : Permissions) (naming : Naming)
      (resolution : ResolutionConfig) : Arises { db with cache, granted, naming, resolution }

theorem Arises.tables (h : db.Arises) : db.store.Tables := by
  induction h with
  | opened database => exact (Store.consistent_empty database).tables
  | served _ r ih => exact holds_store_serve ih fun r' _ => (ih.serve r').1
  | stored _ r ih => exact (ih.serve r).1
  | configured _ _ _ _ _ ih => exact ih

/-- Nothing is left in the cache. -/
structure Emptied (db : Database) : Prop where
  chronicles_eq : db.cache.chronicles = []
  names_eq : db.cache.names = ∅
  schemas_eq : db.cache.schemas = ∅
  properties_eq : db.cache.properties = ∅

/-- Where all chains can be followed and deletion is permitted, a schema is deleted exactly if no other
schema has it in its chain and no chronicle uses it. Then it is all that is taken from the store, what is
left is merged as before, and the cache is empty. If it is not deleted nothing changes. -/
theorem deleteSchema_iff_unused (harises : db.Arises) (h : db.Followable)
    (hgranted : ∀ b, db.store.schemas.get? name = some b → db.granted .delete b.surrogate) :
    let r := db.deleteSchema name
    (r.result = .ok () ↔ db.store.Unused name) ∧
    (r.result = .ok () →
      r.state.store = { db.store with schemas := db.store.schemas.erase name } ∧
      (∀ n b, r.state.store.schemas.get? n = some b →
        n ≠ name ∧ db.store.schemas.get? n = some b ∧
        ∀ maxDepth, b.merge r.state.store.source maxDepth = b.merge db.store.source maxDepth) ∧
      r.state.Emptied) ∧
    ∀ e, r.result = .error e → r.state = db := by
  have ht := harises.tables
  have hiff := exists_deletableSchema_iff h ht hgranted
  dsimp only
  cases hb : db.deletableSchema name with
  | error e =>
    have hrun : db.deleteSchema name = .fail db (.error e) := by
      rw [deleteSchema, hb]
      rfl
    have hnot : ¬db.store.Unused name := by
      rw [← hiff, hb]
      rintro ⟨b, ⟨⟩⟩
    have herror : (db.deleteSchema name).result ≠ .ok () := by
      rw [hrun]
      simp [Outcome.fail]
    refine ⟨⟨fun hok => absurd hok herror, fun hunused => absurd hunused hnot⟩,
      fun hok => absurd hok herror, fun e' _ => ?_⟩
    rw [hrun]
    rfl
  | ok b =>
    have hget := schema?_of_deletableSchema hb
    have hunused := hiff.1 ⟨b, hb⟩
    have hrun : db.deleteSchema name =
        .ok (db.clearCache.withStore { db.store with schemas := db.store.schemas.erase name }) () := by
      have hdelete := Store.deleteSchema_eq ht.schemas hget
      rw [deleteSchema, hb]
      change db.clearCache.onStore (·.deleteSchema b.surrogate) = _
      rw [onStore]
      change Outcome.inState _ (Outcome.mapError _ (db.store.deleteSchema b.surrogate)) = _
      rw [hdelete]
      rfl
    have hok : ∀ e, (db.deleteSchema name).result ≠ .error e := by
      intro e
      rw [hrun]
      simp [Outcome.ok]
    refine ⟨⟨fun _ => hunused, fun _ => by rw [hrun]; rfl⟩, fun _ => ?_, fun e he => absurd he (hok e)⟩
    rw [hrun]
    refine ⟨rfl, fun n c hc => ?_, ⟨rfl, rfl, rfl, rfl⟩⟩
    have hc : (db.store.schemas.erase name).get? n = some c := hc
    rw [SortedMap.get?_erase] at hc
    split_ifs at hc with hne
    obtain ⟨-, -, hother, -⟩ := hunused
    exact ⟨hne, hc, Store.merge_erase hc (hother n hne)⟩

def draftOf (name : String) (base : Option String) : Blueprint :=
  { surrogate := .pending ⟨1⟩ .schema, name, base }

/-- A database in which two schemas have been saved, the second with the first as its base. -/
def sampleLine : Database :=
  (fresh ⟨1⟩ 1 Nat.one_pos {} { requireComplete := false }).run
    [.updateSchema (draftOf "a" none), .updateSchema (draftOf "b" (some "a"))]

theorem followable_sampleLine : sampleLine.store.Extends "b" "a" ∧ sampleLine.Followable := by
  have hbases : sampleLine.store.schemas.toList.map (fun e => (e.1, e.2.base)) =
      [("a", none), ("b", some "a")] := by decide +kernel
  have hmem : ∀ n b, sampleLine.store.schemas.get? n = some b →
      (n, b.base) ∈ [("a", none), ("b", some "a")] := by
    intro n b hb
    rw [← hbases]
    exact List.mem_map_of_mem (f := fun e => (e.1, e.2.base)) (SortedMap.mem_toList_iff.2 hb)
  have hstored : ∀ n base, (n, base) ∈ [("a", none), ("b", some "a")] →
      ∃ b, sampleLine.store.schemas.get? n = some b ∧ b.base = base := by
    intro n base hn
    rw [← hbases] at hn
    obtain ⟨e, he, heq⟩ := List.mem_map.1 hn
    obtain ⟨rfl, rfl⟩ := Prod.mk.inj heq
    exact ⟨e.2, SortedMap.mem_toList_iff.1 he, rfl⟩
  obtain ⟨a, ha, hroot⟩ := hstored "a" none (by decide)
  have hheight : sampleLine.store.Height (some "a") 1 := .next ha (hroot ▸ .done)
  refine ⟨hstored "b" (some "a") (by decide), fun n b hb => ?_⟩
  have hn := hmem n b hb
  simp only [List.mem_cons, Prod.mk.injEq, List.not_mem_nil, or_false] at hn
  obtain ⟨rfl, -⟩ | ⟨rfl, hbase⟩ := hn
  · exact ⟨1, by decide, hheight⟩
  · exact ⟨2, by decide, .next hb (hbase ▸ hheight)⟩

theorem deleteSchema_iff_unused_sample :
    (sampleLine.Arises ∧ sampleLine.Followable ∧
      ∀ name b, sampleLine.store.schemas.get? name = some b → sampleLine.granted .delete b.surrogate) ∧
    (sampleLine.deleteSchema "b").result = .ok () ∧ sampleLine.store.Unused "b" ∧
      (sampleLine.deleteSchema "b").state.Emptied ∧
    (∃ e, (sampleLine.deleteSchema "a").result = .error e) ∧ ¬sampleLine.store.Unused "a" ∧
      (sampleLine.deleteSchema "a").state = sampleLine := by
  have harises : sampleLine.Arises := .served (.served (.opened ⟨1⟩ _ _ _ _) _) _
  obtain ⟨hextends, h⟩ := followable_sampleLine
  have hgranted : ∀ name b, sampleLine.store.schemas.get? name = some b →
      sampleLine.granted .delete b.surrogate := fun _ _ _ => rfl
  obtain ⟨hiff, hok, -⟩ := deleteSchema_iff_unused harises h (hgranted "b")
  obtain ⟨hiff', -, herror⟩ := deleteSchema_iff_unused harises h (hgranted "a")
  have hdeleted : (sampleLine.deleteSchema "b").result = .ok () := by decide +kernel
  have hused : ¬sampleLine.store.Unused "a" := by
    rintro ⟨b, -, hother, -⟩
    exact hother "b" (by decide) (.single hextends)
  obtain ⟨e, he⟩ : ∃ e, (sampleLine.deleteSchema "a").result = .error e := by
    cases hr : (sampleLine.deleteSchema "a").result with
    | error e => exact ⟨e, rfl⟩
    | ok u => exact absurd (hiff'.1 hr) hused
  exact ⟨⟨harises, h, hgranted⟩, hdeleted, hiff.1 hdeleted, (hok hdeleted).2.2, ⟨e, he⟩, hused, herror e he⟩

end Database

end ChronicleMeta
