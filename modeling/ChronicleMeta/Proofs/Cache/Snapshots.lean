import ChronicleMeta.Proofs.Cache.Ledger

/-!
The chronicles of a cache as snapshots that are told apart by the store that made them, in two tables:
under their identities and under their full names. What a full name leads to is forgotten with a snapshot
only if it is that very snapshot.
-/

namespace ChronicleMeta.Cache

/-- A chronicle as it was stored. Equal chronicles that were stored at different times are different
snapshots. -/
structure Snapshot where
  /-- How many snapshots were made before. -/
  serial : Nat
  chronicle : Chronicle

structure Tables where
  made : Nat := 0
  /-- The snapshots by identity, the latest used first. -/
  byIdentity : Recency Identity Snapshot := []
  /-- The snapshot last stored under a full name. -/
  byName : SortedMap String Snapshot := ∅

namespace Tables

/-- The full names without that of the snapshot, if it leads to the snapshot. -/
def forget (t : Tables) (old : Snapshot) : SortedMap String Snapshot :=
  if (t.byName.get? old.chronicle.fullName).any (·.serial = old.serial) then
    t.byName.erase old.chronicle.fullName
  else t.byName

def put (capacity : Nat) (t : Tables) (k : Identity) (x : Chronicle) : Tables :=
  let snapshot : Snapshot := { serial := t.made, chronicle := x }
  let (displaced, byIdentity) := t.byIdentity.push capacity k snapshot
  { made := t.made + 1
    byIdentity
    byName := (displaced.elim t.byName fun e => t.forget e.2).insert x.fullName snapshot }

/-- The snapshot of the identity becomes the latest used. -/
def promote (t : Tables) (k : Identity) : Tables :=
  { t with byIdentity := t.byIdentity.promote k }

def drop (t : Tables) (k : Identity) (old : Snapshot) : Tables :=
  { t with byIdentity := t.byIdentity.erase k, byName := t.forget old }

/-- The tables after a request that was answered. -/
def note (capacity : Nat) (t : Tables) : Request × Except Failure Reply → Tables
  | (.store x, .ok (.chronicle (some stored))) => x.surrogate.identity?.elim t (t.put capacity · stored)
  | (.store x, .ok (.chronicle none)) => x.surrogate.identity?.elim t t.promote
  | (.lookUp s, _) => s.identity?.elim t t.promote
  | (.lookUpName n, _) =>
    ((t.byName.get? n).bind (·.chronicle.surrogate.identity?)).elim t t.promote
  | (.clearChronicle s, _) =>
    s.identity?.elim t fun k => (t.byIdentity.get? k).elim t (t.drop k)
  | (.clear, _) => { made := t.made }
  | _ => t

/-- The tables of a cache that was empty at first. -/
def ofHistory (capacity : Nat) (es : List (Request × Except Failure Reply)) : Tables :=
  es.foldl (note capacity) {}

/-- The tables hold what is cached, and both hold the same snapshots. -/
structure Mirrors (t : Tables) (c : Cache) : Prop where
  unique : t.byIdentity.Unique
  chronicles : c.chronicles = t.byIdentity.map (Prod.map id Snapshot.chronicle)
  names : ∀ n, c.names.get? n = (t.byName.get? n).bind (·.chronicle.surrogate.identity?)
  /-- A full name leads to a snapshot that has it and is in the other table under its own identity. -/
  held : ∀ n s, t.byName.get? n = some s → s.chronicle.fullName = n ∧
    ∃ k, s.chronicle.surrogate.identity? = some k ∧ t.byIdentity.get? k = some s
  made : ∀ k s, t.byIdentity.get? k = some s → s.serial < t.made
  distinct : ∀ j k s s', t.byIdentity.get? j = some s → t.byIdentity.get? k = some s' →
    s.serial = s'.serial → j = k

variable {t : Tables} {c c' : Cache} {k : Identity} {x : Chronicle} {old : Snapshot}

theorem mirrors_nil (made : Nat) (hchron : c.chronicles = []) (hnames : c.names = ∅) :
    Mirrors { made } c where
  unique := Recency.unique_nil
  chronicles := hchron
  names n := by simp [hnames]
  held n s hs := by simp at hs
  made k s hs := by cases hs
  distinct j k s s' hs := by cases hs

theorem Mirrors.get?_chronicles (h : t.Mirrors c) (k : Identity) :
    c.chronicles.get? k = (t.byIdentity.get? k).map (·.chronicle) := by
  rw [h.chronicles, Recency.get?_map]

theorem Mirrors.of_get? (h : t.Mirrors c) (hx : c.chronicles.get? k = some x) :
    ∃ s, t.byIdentity.get? k = some s ∧ s.chronicle = x :=
  Option.map_eq_some_iff.1 (h.get?_chronicles k ▸ hx)

/-- The answer to a look-up by full name is the snapshot in the table. -/
theorem Mirrors.lookUpName_eq (h : t.Mirrors c) (n : String) :
    (c.lookUpName n).1 = (t.byName.get? n).map (·.chronicle) := by
  rw [lookUpName_found, h.names]
  cases hs : t.byName.get? n with
  | none => rfl
  | some s =>
    obtain ⟨-, k, hk, hget⟩ := h.held n s hs
    simp only [Option.bind_some, hk, h.get?_chronicles, hget]

/-- A full name leads to the very snapshot of an identity exactly if it leads to the identity. -/
theorem Mirrors.leads_iff (h : t.Mirrors c) (hold : t.byIdentity.get? k = some old) (n : String) :
    (t.byName.get? n).any (·.serial = old.serial) ↔ c.names.get? n = some k := by
  rw [h.names]
  cases hs : t.byName.get? n with
  | none => simp
  | some s =>
    obtain ⟨-, j, hj, hget⟩ := h.held n s hs
    simp only [Option.any_some, decide_eq_true_eq, Option.bind_some, hj, Option.some.injEq]
    refine ⟨fun hserial => h.distinct j k s old hget hold hserial, ?_⟩
    rintro rfl
    rw [Option.some.inj (hget.symm.trans hold)]

theorem Mirrors.promote (h : t.Mirrors c) (k : Identity) (hchron : c'.chronicles = c.chronicles.promote k)
    (hnames : c'.names = c.names) : (t.promote k).Mirrors c' := by
  have hp := (Recency.perm_promote h.unique k).symm
  have hget := fun j => Recency.get?_perm h.unique hp j
  refine ⟨h.unique.perm hp, ?_, fun n => ?_, fun n s hs => ?_, fun j s hs => ?_,
    fun i j s s' hs hs' => ?_⟩
  · rw [hchron, h.chronicles, Recency.promote_map]
    rfl
  · rw [hnames]
    exact h.names n
  · obtain ⟨hn, j, hj, hs⟩ := h.held n s hs
    exact ⟨hn, j, hj, (hget j).trans hs⟩
  · exact h.made j s ((hget j).symm.trans hs)
  · exact h.distinct i j s s' ((hget i).symm.trans hs) ((hget j).symm.trans hs')

theorem Mirrors.drop (h : t.Mirrors c) (hold : t.byIdentity.get? k = some old)
    (hchron : c'.chronicles = c.chronicles.erase k)
    (hnames : c'.names = (c.forgetName k old.chronicle).names) : (t.drop k old).Mirrors c' := by
  have hleads := h.leads_iff hold old.chronicle.fullName
  have hget : ∀ {j s}, (t.byIdentity.erase k).get? j = some s → t.byIdentity.get? j = some s := by
    intro j s hs
    rw [Recency.get?_erase] at hs
    split_ifs at hs
    exact hs
  refine ⟨h.unique.erase k, ?_, fun n => ?_, fun n s hs => ?_, fun j s hs => h.made j s (hget hs),
    fun i j s s' hs hs' => h.distinct i j s s' (hget hs) (hget hs')⟩
  · rw [hchron, h.chronicles, Recency.erase_map]
    rfl
  · simp only [hnames, names_forgetName, ← hleads, Tables.drop, forget]
    split_ifs
    · rw [SortedMap.get?_erase, SortedMap.get?_erase, h.names]
      split_ifs <;> rfl
    · exact h.names n
  · -- the snapshot dropped is not among those that full names lead to
    have hs' : t.byName.get? n = some s ∧ s.serial ≠ old.serial := by
      simp only [Tables.drop, forget] at hs
      split_ifs at hs with hthis
      · rw [SortedMap.get?_erase] at hs
        split_ifs at hs with hn
        refine ⟨hs, fun hserial => hn ?_⟩
        obtain ⟨hname, j, -, hj⟩ := h.held n s hs
        obtain rfl := h.distinct j k s old hj hold hserial
        rw [← hname, Option.some.inj (hj.symm.trans hold)]
      · refine ⟨hs, fun hserial => hthis ?_⟩
        obtain ⟨hname, j, -, hj⟩ := h.held n s hs
        obtain rfl := h.distinct j k s old hj hold hserial
        rw [← Option.some.inj (hj.symm.trans hold), hname, hs]
        simp
    obtain ⟨hname, j, hj, hjs⟩ := h.held n s hs'.1
    refine ⟨hname, j, hj, ?_⟩
    have hne : j ≠ k := by
      rintro rfl
      exact hs'.2 (by rw [Option.some.inj (hjs.symm.trans hold)])
    exact (Recency.get?_erase k j).trans (by rw [if_neg hne, hjs])

def add (t : Tables) (k : Identity) (x : Chronicle) : Tables where
  made := t.made + 1
  byIdentity := (k, { serial := t.made, chronicle := x }) :: t.byIdentity
  byName := t.byName.insert x.fullName { serial := t.made, chronicle := x }

theorem Mirrors.add (h : t.Mirrors c) (hnone : t.byIdentity.get? k = none)
    (hk : x.surrogate.identity? = some k) (hchron : c'.chronicles = (k, x) :: c.chronicles)
    (hnames : c'.names = c.names.insert x.fullName k) : (t.add k x).Mirrors c' := by
  have hget : ∀ {j s}, (t.add k x).byIdentity.get? j = some s →
      j = k ∧ s = { serial := t.made, chronicle := x } ∨ t.byIdentity.get? j = some s := by
    intro j s hs
    rw [Tables.add, Recency.get?_cons] at hs
    split_ifs at hs with hj
    · exact .inl ⟨hj, (Option.some.inj hs).symm⟩
    · exact .inr hs
  refine ⟨List.nodup_cons.2 ⟨Recency.get?_eq_none_iff.1 hnone, h.unique⟩, ?_, fun n => ?_,
    fun n s hs => ?_, fun j s hs => ?_, fun i j s s' hs hs' hserial => ?_⟩
  · rw [hchron, h.chronicles]
    rfl
  · rw [hnames, Tables.add, SortedMap.get?_insert, SortedMap.get?_insert, h.names]
    split_ifs
    · exact hk.symm
    · rfl
  · rw [Tables.add, SortedMap.get?_insert] at hs
    rw [Tables.add]
    split_ifs at hs with hn
    · obtain rfl := Option.some.inj hs
      exact ⟨hn.symm, k, hk, by rw [Recency.get?_cons, if_pos rfl]⟩
    · obtain ⟨hname, j, hj, hjs⟩ := h.held n s hs
      have hne : j ≠ k := by
        rintro rfl
        rw [hnone] at hjs
        cases hjs
      exact ⟨hname, j, hj, by rw [Recency.get?_cons, if_neg hne, hjs]⟩
  · obtain ⟨-, rfl⟩ | hs := hget hs
    · exact Nat.lt_succ_self _
    · exact Nat.lt_succ_of_lt (h.made j s hs)
  · -- the new snapshot has a number that none had before
    obtain ⟨rfl, rfl⟩ | hi := hget hs <;> obtain ⟨rfl, rfl⟩ | hj := hget hs'
    · rfl
    · exact absurd hserial.symm (Nat.ne_of_lt (h.made j s' hj))
    · exact absurd hserial (Nat.ne_of_lt (h.made i s hi))
    · exact h.distinct i j s s' hi hj hserial

/-- To put a snapshot is to add it, maybe after another one has been dropped. -/
theorem Mirrors.put (h : t.Mirrors c) (hk : x.surrogate.identity? = some k)
    (hplaced : c.Placed k x c') : (t.put c.capacity k x).Mirrors c' := by
  have hpush := Recency.push_map Snapshot.chronicle t.byIdentity c.capacity k
    { serial := t.made, chronicle := x }
  rw [← h.chronicles] at hpush
  have hchron := hplaced.chronicles.trans (congrArg Prod.snd hpush)
  have hnames := hplaced.names.trans (congrArg (fun p => (c.namesWithout p.1).insert x.fullName k) hpush)
  obtain ⟨hnone, hcase⟩ | ⟨j, old, hold, hnone, hcase⟩ :=
    Recency.push_cases h.unique c.capacity k { serial := t.made, chronicle := x }
  · have hput : t.put c.capacity k x = t.add k x := by
      simp only [Tables.put, hcase]
      rfl
    rw [hcase] at hchron hnames
    rw [hput]
    exact h.add hnone hk (by rw [hchron, h.chronicles]; rfl) hnames
  · have hput : t.put c.capacity k x = (t.drop j old).add k x := by
      simp only [Tables.put, hcase]
      rfl
    have hdrop : (t.drop j old).Mirrors { c with
        chronicles := c.chronicles.erase j
        names := (c.forgetName j old.chronicle).names } := h.drop hold rfl rfl
    rw [hcase] at hchron hnames
    rw [hput]
    refine hdrop.add hnone hk ?_ hnames
    rw [hchron, h.chronicles, Recency.erase_map]
    rfl

/-- Tables that mirror a cache go on to do so. -/
theorem Mirrors.note (h : t.Mirrors c) {r : Request} {answer : Except Failure Reply}
    (he : Effect c r answer c') : (t.note c.capacity (r, answer)).Mirrors c' := by
  cases he with
  | refused => exact h
  | reset => exact ⟨h.unique, h.chronicles, h.names, h.held, h.made, h.distinct⟩
  | known hk hcached =>
    simp only [Tables.note, hk, Option.elim_some]
    exact h.promote _ rfl rfl
  | placed hk hplaced =>
    simp only [Tables.note, hk, Option.elim_some]
    exact h.put hk hplaced
  | found hk hx =>
    simp only [Tables.note, hk, Option.elim_some]
    exact h.promote _ rfl rfl
  | @missed s hs =>
    cases hk : s.identity? with
    | none =>
      simp only [Tables.note, hk, Option.elim_none]
      exact ⟨h.unique, h.chronicles, h.names, h.held, h.made, h.distinct⟩
    | some k =>
      simp only [Tables.note, hk, Option.elim_some]
      exact h.promote k (Recency.promote_of_get?_eq_none (hs k hk)).symm rfl
  | foundName hn hx =>
    simp only [Tables.note, ← h.names, hn, Option.elim_some]
    exact h.promote _ rfl rfl
  | missedName hn =>
    simp only [Tables.note, ← h.names, hn, Option.elim_none]
    exact ⟨h.unique, h.chronicles, h.names, h.held, h.made, h.distinct⟩
  | dropped hk hx hdropped =>
    obtain ⟨old, hold, rfl⟩ := h.of_get? hx
    simp only [Tables.note, hk, hold, Option.elim_some]
    exact h.drop hold hdropped.chronicles hdropped.names
  | @absent s hs =>
    cases hk : s.identity? with
    | none =>
      simp only [Tables.note, hk, Option.elim_none]
      exact h
    | some k =>
      have hnone : t.byIdentity.get? k = none := by simpa [h.get?_chronicles] using hs k hk
      simp only [Tables.note, hk, hnone, Option.elim_some, Option.elim_none]
      exact h
  | cleared => exact mirrors_nil _ rfl rfl

end Tables

/-- After any requests, the tables of snapshots mirror the cache. -/
theorem mirrors_run (capacity : Nat) (h : 0 < capacity) (rs : List Request) :
    (Tables.ofHistory capacity ((Cache.empty capacity h).history rs)).Mirrors
      ((Cache.empty capacity h).run rs) :=
  run_history Tables.note (fun hmirrors _ he => hmirrors.note he)
    (indexed_empty capacity h) (Tables.mirrors_nil 0 rfl rfl) rs

end ChronicleMeta.Cache
