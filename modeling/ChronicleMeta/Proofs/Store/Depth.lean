import ChronicleMeta.Proofs.Blueprint.Walk
import ChronicleMeta.Proofs.Store.Forest

/-! How long the base chains of the stored schemas are. -/

namespace ChronicleMeta.Store

/-- So many stored schemas follow from the base name on, each the base of the one before, up to one
without base. -/
inductive Height (s : Store) : Option String → Nat → Prop
  | done : s.Height none 0
  | next {n : String} {b : Blueprint} {k : Nat} (hb : s.schemas.get? n = some b)
      (h : s.Height b.base k) : s.Height (some n) (k + 1)

/-- No more stored schemas than the given number follow from any name. -/
def Within (s : Store) (maxDepth : Nat) : Prop := ∀ n k, s.Height (some n) k → k ≤ maxDepth

variable {s s' : Store} {n : String} {next : Option String} {k : Nat} {b b' : Blueprint}

theorem Height.unique (h : s.Height next k) {k' : Nat} (h' : s.Height next k') : k = k' := by
  induction h generalizing k' with
  | done =>
    cases h'
    rfl
  | next hb _ ih =>
    cases h' with
    | next hb' h' =>
      obtain rfl := Option.some.inj (hb.symm.trans hb')
      rw [ih h']

/-- As many follow where the schemas have other contents but the same bases. -/
theorem Height.mono (h : s.Height next k) (hs : ∀ n b, s.schemas.get? n = some b →
    ∃ b', s'.schemas.get? n = some b' ∧ b'.base = b.base) : s'.Height next k := by
  induction h with
  | done => exact .done
  | @next n b k hb _ ih =>
    obtain ⟨b', hb', hbase⟩ := hs n b hb
    exact .next hb' (hbase ▸ ih)

theorem Within.of_bases (h : s.Within k) (hs : ∀ n b', s'.schemas.get? n = some b' →
    ∃ b, s.schemas.get? n = some b ∧ b.base = b'.base) : s'.Within k :=
  fun n _ hn => h n _ (hn.mono hs)

theorem Within.of_schemas_eq (h : s.Within k) (heq : s'.schemas = s.schemas) : s'.Within k :=
  h.of_bases fun _ b' hb' => ⟨b', heq ▸ hb', rfl⟩

theorem Within.deleteSchema (h : s.Within k) (x : Surrogate) : (s.deleteSchema x).state.Within k := by
  unfold Store.deleteSchema
  cases s.loadSchema x with
  | none => exact h
  | some b =>
    refine h.of_bases fun n c hc => ?_
    simp only [Outcome.ofExcept, Outcome.ok, pure, Except.pure, SortedMap.get?_erase] at hc
    split_ifs at hc
    exact ⟨c, hc, rfl⟩

theorem Within.updateProperty (h : s.Within k) (p : Property) :
    (s.updateProperty p).state.Within k := by
  obtain ⟨e, hs⟩ | ⟨old, schemas, -, -, -, hschemas, hs⟩ := updateProperty_cases s p
  · rw [hs]
    exact h
  · rw [hs]
    refine h.of_bases fun n b' hb' => ?_
    obtain ⟨b, hb, hrun⟩ := (get?_rewriteSchemas hschemas).1 n b' hb'
    exact ⟨b, hb, by rw [mapProperties_eq_ok hrun]⟩

theorem Grounded.height (h : s.Grounded n) : ∃ k, s.Height (some n) k := by
  induction h with
  | @intro n b hb _ ih =>
    cases hbase : b.base with
    | none => exact ⟨1, .next hb (hbase ▸ .done)⟩
    | some m =>
      obtain ⟨k, hk⟩ := ih m hbase
      exact ⟨k + 1, .next hb (hbase ▸ hk)⟩

/-- A walk that ends has come by as many schemas as follow from where it goes on, also where the schemas
met before are others. -/
theorem height_of_walk {maxDepth room : Nat} {start : String} {visited : List String}
    {walked chain : List Blueprint}
    (h : Blueprint.walk s.source maxDepth start room visited walked next = .ok chain)
    (hother : ∀ n, n ∉ visited → s'.schemas.get? n = s.schemas.get? n) :
    ∃ k, s'.Height next k ∧ chain.length = walked.length + k ∧ k ≤ room := by
  -- no name is met again, so that only schemas that the stores share are asked for
  induction room generalizing visited walked next with
  | zero =>
    obtain ⟨rfl, rfl⟩ | ⟨name, base, room', -, hroom, -⟩ := Blueprint.walk_eq_ok_iff.1 h
    · exact ⟨0, .done, rfl, Nat.le_refl 0⟩
    · cases hroom
  | succ room ih =>
    obtain ⟨rfl, rfl⟩ | ⟨name, base, room', rfl, hroom, hnew, hbase, hrest⟩ :=
      Blueprint.walk_eq_ok_iff.1 h
    · exact ⟨0, .done, rfl, Nat.zero_le _⟩
    · cases hroom
      have hget := (hother name hnew).trans (Except.ok.inj hbase)
      obtain ⟨k, hk, hlength, hle⟩ := ih hrest fun n hn =>
        hother n fun hvisited => hn (List.mem_cons_of_mem _ hvisited)
      refine ⟨k + 1, .next hget hk, ?_, by omega⟩
      rw [hlength, List.length_append, List.length_singleton]
      omega

/-- Where enough schemas are allowed a walk ends. It meets no name again, for fewer schemas follow from
a base than from the schema. -/
theorem Height.walk_eq_ok (h : s.Height next k) {maxDepth room : Nat} {start : String}
    {visited : List String} {walked : List Blueprint} (hroom : k ≤ room)
    (hvisited : ∀ v ∈ visited, ∀ j, s.Height (some v) j → k < j) :
    ∃ more, Blueprint.walk s.source maxDepth start room visited walked next = .ok (walked ++ more) ∧
      more.length = k := by
  induction h generalizing room visited walked with
  | done => exact ⟨[], by rw [Blueprint.walk_end, List.append_nil], rfl⟩
  | @next n b k hb hbase ih =>
    obtain ⟨room, rfl⟩ : ∃ room', room = room' + 1 := Nat.exists_eq_add_one.2 (by omega)
    have hheight : s.Height (some n) (k + 1) := .next hb hbase
    have hnew : n ∉ visited := by
      intro hmem
      have hlt := hvisited n hmem _ hheight
      omega
    have hvisited' : ∀ v ∈ n :: visited, ∀ j, s.Height (some v) j → k < j := by
      refine List.forall_mem_cons.2 ⟨fun j hj => ?_, fun v hv j hj => ?_⟩
      · have heq := hheight.unique hj
        omega
      · have hlt := hvisited v hv j hj
        omega
    obtain ⟨more, hwalk, hlength⟩ := @ih room (n :: visited) (walked ++ [b]) (by omega) hvisited'
    refine ⟨b :: more, ?_, by rw [List.length_cons, hlength]⟩
    rw [Blueprint.walk_found hnew (congrArg Except.ok hb), hwalk, List.append_assoc]
    rfl

/-- The chain of a schema can be followed if fewer schemas follow from its base than are allowed, and more
from its name if it is stored. -/
theorem Height.exists_chain {b : Blueprint} (h : s.Height b.base k) {maxDepth : Nat}
    (hlt : k < maxDepth) (hself : ∀ j, s.Height (some b.name) j → k < j) :
    ∃ chain, b.chain s.source maxDepth = .ok chain ∧ chain.length = k + 1 := by
  obtain ⟨more, hwalk, hlength⟩ := @Height.walk_eq_ok _ _ _ h maxDepth _ b.name _ [b]
    (Nat.le_sub_one_of_lt hlt) (List.forall_mem_singleton.2 hself)
  exact ⟨[b] ++ more, hwalk, by rw [List.singleton_append, List.length_cons, hlength]⟩

/-- The chain of a stored schema can be followed if no more schemas follow than are allowed. -/
theorem Height.chain_eq_ok (h : s.Height (some n) k) (hb : s.schemas.get? n = some b)
    (hname : b.name = n) {maxDepth : Nat} (hle : k ≤ maxDepth) :
    ∃ chain, b.chain s.source maxDepth = .ok chain ∧ chain.length = k := by
  cases h with
  | @next _ b₀ k hb₀ hbase =>
    obtain rfl := Option.some.inj (hb.symm.trans hb₀)
    have hheight : s.Height (some b.name) (k + 1) := .next (hname ▸ hb) hbase
    refine hbase.exists_chain hle fun j hj => ?_
    have heq := hheight.unique hj
    omega

/-- From the first name so many bases lead to the second, which is not met before. -/
inductive Below (s : Store) (n : String) : String → Nat → Prop
  | self : s.Below n n 0
  | step {m m' : String} {j : Nat} (hne : m ≠ n) (hm : s.Extends m m') (h : s.Below n m' j) :
      s.Below n m (j + 1)

theorem Below.eq_zero {m : String} {j : Nat} (h : s.Below n m j) (hnone : ∀ m, ¬s.Extends m n) :
    j = 0 := by
  induction h with
  | self => rfl
  | step _ hm hrest ih =>
    cases hrest with
    | self => exact absurd hm (hnone _)
    | step => cases ih

/-- Where one schema is stored, as many follow from a name as before, or the name is below the schema. -/
theorem Height.of_put {i : Nat} (h : s'.Height next i) (hk : s'.Height (some n) k)
    (hother : ∀ m, m ≠ n → s'.schemas.get? m = s.schemas.get? m) :
    s.Height next i ∨ ∃ m j, next = some m ∧ s.Below n m j ∧ i = j + k := by
  induction h with
  | done => exact .inl .done
  | @next m c i hc hbase ih =>
    by_cases hm : m = n
    · subst hm
      have heq := (Height.next hc hbase).unique hk
      exact .inr ⟨m, 0, rfl, .self, by omega⟩
    · have hold := (hother m hm).symm.trans hc
      obtain hheight | ⟨m', j, hnext, hbelow, rfl⟩ := ih
      · exact .inl (.next hold hheight)
      · exact .inr ⟨m, j + 1, rfl, .step hm ⟨c, hold, hnext⟩ hbelow, by omega⟩

theorem Below.height {m : String} {j : Nat} (h : s.Below n m j) (hk : s'.Height (some n) k)
    (hother : ∀ m, m ≠ n → s'.schemas.get? m = s.schemas.get? m) : s'.Height (some m) (j + k) := by
  induction h with
  | self => rwa [Nat.zero_add]
  | @step m m' j hne hm _ ih =>
    obtain ⟨c, hc, hbase⟩ := hm
    rw [Nat.add_right_comm]
    exact .next ((hother m hne).trans hc) (hbase ▸ ih)

/-- The schema of the name has been stored: with the base of `b`, and no other schema has changed. -/
def Puts (s : Store) (b : Blueprint) (s' : Store) : Prop :=
  (∃ b', s'.schemas.get? b.name = some b' ∧ b'.base = b.base) ∧
    ∀ m, m ≠ b.name → s'.schemas.get? m = s.schemas.get? m

theorem Puts.height (h : s.Puts b s') {maxDepth : Nat} {chain : List Blueprint}
    (hchain : b.chain s.source maxDepth = .ok chain) : s'.Height (some b.name) chain.length := by
  obtain ⟨⟨b', hb', hbase⟩, hother⟩ := h
  have hrest : ∀ m, m ∉ [b.name] → s'.schemas.get? m = s.schemas.get? m := fun m hm =>
    hother m fun heq => hm (List.mem_singleton.2 heq)
  obtain ⟨k, hk, hlength, -⟩ := height_of_walk hchain hrest
  rw [hlength, List.length_singleton, Nat.add_comm]
  exact .next hb' (hbase ▸ hk)

/-- A schema whose chain has been followed lengthens no chain too much exactly if, for each name from
which bases lead to it, those and the chain are together no more than allowed. -/
theorem Puts.within_iff (h : s.Puts b s') {maxDepth limit : Nat} {chain : List Blueprint}
    (hchain : b.chain s.source maxDepth = .ok chain) (hwithin : s.Within limit) :
    s'.Within limit ↔ ∀ m j, s.Below b.name m j → j + chain.length ≤ limit := by
  have hk := h.height hchain
  constructor
  · intro hwithin' m j hbelow
    exact hwithin' m _ (hbelow.height hk h.2)
  · intro hbelow m k hm
    obtain hold | ⟨m', j, hnext, hm', rfl⟩ := hm.of_put hk h.2
    · exact hwithin m k hold
    · obtain rfl := Option.some.inj hnext
      exact hbelow m j hm'

theorem puts_createSchema {id : UInt64} (h : (s.createSchema b).result = .ok id) :
    s.Puts b (s.createSchema b).state := by
  obtain ⟨e, hs⟩ | ⟨-, -, hs⟩ := createSchema_cases s b
  · rw [hs] at h
    cases h
  · rw [hs]
    exact ⟨⟨_, SortedMap.get?_insert_self .., rfl⟩, fun m hm => SortedMap.get?_insert_of_ne _ hm _⟩

theorem Forest.puts_updateSchema (h : s.Forest) (ht : s.Tracks b)
    (hok : (s.updateSchema b).result = .ok ()) : s.Puts b (s.updateSchema b).state := by
  obtain ⟨e, hs⟩ | ⟨old, hold, -, hs⟩ := updateSchema_cases s b
  · rw [hs] at hok
    cases hok
  · rw [hs]
    refine ⟨⟨_, SortedMap.get?_insert_self .., rfl⟩, fun m hm => ?_⟩
    have hname := h.name_of_loadSchema ht hold
    exact (SortedMap.get?_insert_of_ne _ hm _).trans
      (by rw [SortedMap.get?_erase, hname, if_neg hm])

end ChronicleMeta.Store
