import ChronicleMeta.Proofs.Outcome
import ChronicleMeta.Proofs.SortedMap
import ChronicleMeta.Proofs.Surrogate

/-! Tables of stored objects: each object is under its name and has an id of its own. -/

namespace ChronicleMeta

variable {α : Type} {database : DatabaseId} {kind : ObjectKind} {lastId : UInt64} {name : α → String}
  {surrogate : α → Surrogate} {m m' : SortedMap String α}

/-- A table of objects of one kind of a database, by name. -/
structure Registered (database : DatabaseId) (kind : ObjectKind) (lastId : UInt64)
    (name : α → String) (surrogate : α → Surrogate) (m : SortedMap String α) : Prop where
  name_eq : ∀ n a, m.get? n = some a → name a = n
  owned : ∀ n a, m.get? n = some a →
    ∃ id, surrogate a = .committed database kind id ∧ id.toNat ≤ lastId.toNat
  unique : ∀ n n' a b, m.get? n = some a → m.get? n' = some b → surrogate a = surrogate b → n = n'

/-- Looking an object up by its name and by its surrogate leads to the same one. -/
structure Navigable (name : α → String) (surrogate : α → Surrogate) (m : SortedMap String α) :
    Prop where
  of_name : ∀ n a, m.get? n = some a →
    name a = n ∧ m.findValue? (fun b => (surrogate b).agrees (surrogate a)) = some a
  /-- What is found by a surrogate has it, and is found under its name. -/
  of_surrogate : ∀ x a, m.findValue? (fun b => (surrogate b).agrees x) = some a →
    surrogate a = x ∧ m.get? (name a) = some a

theorem registered_empty : Registered database kind lastId name surrogate ∅ := by
  constructor <;> simp

namespace Registered

theorem mono (h : Registered database kind lastId name surrogate m) {lastId' : UInt64}
    (hle : lastId.toNat ≤ lastId'.toNat) : Registered database kind lastId' name surrogate m where
  name_eq := h.name_eq
  owned n a ha := by
    obtain ⟨id, hid, hle'⟩ := h.owned n a ha
    exact ⟨id, hid, Nat.le_trans hle' hle⟩
  unique := h.unique

/-- A table with fewer objects, or with objects that have been changed. -/
theorem of_forall (h : Registered database kind lastId name surrogate m)
    (hm : ∀ n a, m'.get? n = some a →
      ∃ b, m.get? n = some b ∧ name a = name b ∧ surrogate a = surrogate b) :
    Registered database kind lastId name surrogate m' where
  name_eq n a ha := by
    obtain ⟨b, hb, hname, -⟩ := hm n a ha
    rw [hname, h.name_eq n b hb]
  owned n a ha := by
    obtain ⟨b, hb, -, hsurrogate⟩ := hm n a ha
    rw [hsurrogate]
    exact h.owned n b hb
  unique n n' a a' ha ha' heq := by
    obtain ⟨b, hb, -, hsurrogate⟩ := hm n a ha
    obtain ⟨b', hb', -, hsurrogate'⟩ := hm n' a' ha'
    exact h.unique n n' b b' hb hb' (hsurrogate.symm.trans (heq.trans hsurrogate'))

theorem erase (h : Registered database kind lastId name surrogate m) (n : String) :
    Registered database kind lastId name surrogate (m.erase n) := by
  refine h.of_forall fun n' a ha => ?_
  rw [SortedMap.get?_erase] at ha
  split_ifs at ha
  exact ⟨a, ha, rfl, rfl⟩

/-- A table with an object whose surrogate no other one has. -/
theorem insert (h : Registered database kind lastId name surrogate m) {a : α} {id : UInt64}
    (ha : surrogate a = .committed database kind id) (hid : id.toNat ≤ lastId.toNat)
    (hfree : ∀ n b, m.get? n = some b → surrogate b ≠ surrogate a) :
    Registered database kind lastId name surrogate (m.insert (name a) a) where
  name_eq n b hb := by
    rw [SortedMap.get?_insert] at hb
    split_ifs at hb with hn
    · rw [hn, Option.some.inj hb]
    · exact h.name_eq n b hb
  owned n b hb := by
    rw [SortedMap.get?_insert] at hb
    split_ifs at hb with hn
    · exact ⟨id, Option.some.inj hb ▸ ha, hid⟩
    · exact h.owned n b hb
  unique n n' b b' hb hb' heq := by
    rw [SortedMap.get?_insert] at hb hb'
    split_ifs at hb hb' with hn hn' hn'
    · rw [hn, hn']
    · obtain rfl := Option.some.inj hb
      exact absurd heq.symm (hfree n' b' hb')
    · obtain rfl := Option.some.inj hb'
      exact absurd heq (hfree n b hb)
    · exact h.unique n n' b b' hb hb' heq

/-- A new object, with the next id. -/
theorem insert_new (h : Registered database kind lastId name surrogate m) {a : α} {id : UInt64}
    (ha : surrogate a = .committed database kind id) (hid : lastId.toNat < id.toNat) :
    Registered database kind id name surrogate (m.insert (name a) a) := by
  refine (h.mono (Nat.le_of_lt hid)).insert ha (Nat.le_refl _) fun n b hb heq => ?_
  obtain ⟨id', hid', hle⟩ := h.owned n b hb
  rw [hid', ha] at heq
  obtain rfl : id' = id := by simpa [Surrogate.committed] using heq
  omega

/-- An object in the place of the one with its surrogate. -/
theorem replace (h : Registered database kind lastId name surrogate m) {n : String} {old a : α}
    (hold : m.get? n = some old) (ha : surrogate a = surrogate old) :
    Registered database kind lastId name surrogate ((m.erase n).insert (name a) a) := by
  obtain ⟨id, hid, hle⟩ := h.owned n old hold
  refine (h.erase n).insert (ha.trans hid) hle fun n' b hb heq => ?_
  rw [SortedMap.get?_erase] at hb
  split_ifs at hb with hn
  exact hn (h.unique n' n b old hb hold (heq.trans ha))

theorem exists_id (h : Registered database kind lastId name surrogate m) {x : Surrogate}
    (hx : x ∈ m.values.map surrogate) : ∃ id, x.id? = some id ∧ id.toNat ≤ lastId.toNat := by
  obtain ⟨a, ha, rfl⟩ := List.mem_map.1 hx
  obtain ⟨n, hn⟩ := SortedMap.mem_values_iff.1 ha
  obtain ⟨id, hid, hle⟩ := h.owned n a hn
  exact ⟨id, by rw [hid]; rfl, hle⟩

/-- An object is found by its surrogate. -/
theorem findValue?_eq_some_iff (h : Registered database kind lastId name surrogate m) {x : Surrogate}
    {a : α} : m.findValue? (fun a => (surrogate a).agrees x) = some a ↔
      m.get? (name a) = some a ∧ (surrogate a).agrees x := by
  rw [SortedMap.findValue?]
  constructor
  · intro hfind
    obtain ⟨n, hn⟩ := SortedMap.mem_values_iff.1 (List.mem_of_find?_eq_some hfind)
    have hagrees : (surrogate a).agrees x := by simpa using List.find?_some hfind
    exact ⟨h.name_eq n a hn ▸ hn, hagrees⟩
  · rintro ⟨ha, hagrees⟩
    have hmem := SortedMap.mem_values_iff.2 ⟨name a, ha⟩
    cases hfind : m.values.find? (fun a => (surrogate a).agrees x) with
    | none => exact absurd hagrees (List.find?_eq_none.1 hfind a hmem)
    | some b =>
      obtain ⟨n, hn⟩ := SortedMap.mem_values_iff.1 (List.mem_of_find?_eq_some hfind)
      have hb : (surrogate b).agrees x := by simpa using List.find?_some hfind
      have heq := (Surrogate.agrees_iff.1 hb).1.trans (Surrogate.agrees_iff.1 hagrees).1.symm
      have hname := h.unique n (name a) b a hn ha heq
      rw [← hn, hname, ha]

/-- The objects of a table can be found by name and by surrogate, with the same result. -/
theorem navigable (h : Registered database kind lastId name surrogate m) :
    Navigable name surrogate m where
  of_name n a ha := by
    have hname := h.name_eq n a ha
    obtain ⟨id, hid, -⟩ := h.owned n a ha
    have hself : (surrogate a).agrees (surrogate a) :=
      Surrogate.agrees_iff.2 ⟨rfl, _, by rw [hid]; rfl⟩
    exact ⟨hname, h.findValue?_eq_some_iff.2 ⟨hname ▸ ha, hself⟩⟩
  of_surrogate x a ha := by
    obtain ⟨hget, hagrees⟩ := h.findValue?_eq_some_iff.1 ha
    exact ⟨(Surrogate.agrees_iff.1 hagrees).1, hget⟩

end Registered

theorem surrogates_insert {n : String} (a : α) (hfree : m.get? n = none) :
    ((m.insert n a).values.map surrogate).Perm (surrogate a :: m.values.map surrogate) :=
  (SortedMap.values_insert_perm a hfree).map surrogate

theorem surrogates_erase {n : String} {old : α} (hold : m.get? n = some old) :
    (m.values.map surrogate).Perm (surrogate old :: (m.erase n).values.map surrogate) :=
  (SortedMap.values_perm_cons_erase hold).map surrogate

/-- An object that takes the place of the one with its surrogate, perhaps under another name. -/
theorem surrogates_replace {n n' : String} {old a : α} (hold : m.get? n = some old)
    (hfree : n ≠ n' → m.get? n' = none) (ha : surrogate a = surrogate old) :
    (((m.erase n).insert n' a).values.map surrogate).Perm (m.values.map surrogate) := by
  have hplace : (m.erase n).get? n' = none := by
    rw [SortedMap.get?_erase]
    split_ifs with hn
    · rfl
    · exact hfree fun h => hn h.symm
  have hinsert : (((m.erase n).insert n' a).values.map surrogate).Perm
      (surrogate a :: (m.erase n).values.map surrogate) := surrogates_insert a hplace
  rw [ha] at hinsert
  exact hinsert.trans (surrogates_erase hold).symm

/-- Objects that have been changed, with their surrogates kept. -/
theorem surrogates_eq (h : ∀ n, (m'.get? n).map surrogate = (m.get? n).map surrogate) :
    m'.values.map surrogate = m.values.map surrogate := by
  have hmaps : (m'.mapValues fun _ => surrogate) = m.mapValues fun _ => surrogate :=
    SortedMap.ext_get? fun n => by simp [h]
  rw [← SortedMap.values_mapValues, hmaps, SortedMap.values_mapValues]

end ChronicleMeta
