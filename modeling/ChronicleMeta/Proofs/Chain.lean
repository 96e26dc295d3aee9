import ChronicleMeta.Proofs.PropertyMap
import ChronicleMeta.Proofs.Resolution

/-!
What a resolved schema depends on: the schemas of its chain, so that others may be added, and the
properties that these refer to.
-/

namespace ChronicleMeta

namespace Blueprint

variable {source source' : Source} {maxDepth room : Nat} {start : String} {visited : List String}
  {walked chain : List Blueprint} {next : Option String}

/-- A walk that ends meets the same schemas where there are more of them. -/
theorem walk_mono (hsource : ∀ n b, source n = .ok (some b) → source' n = .ok (some b))
    (h : walk source maxDepth start room visited walked next = .ok chain) :
    walk source' maxDepth start room visited walked next = .ok chain := by
  induction room generalizing visited walked next with
  | zero =>
    obtain hend | ⟨name, base, room', -, hroom, -⟩ := walk_eq_ok_iff.1 h
    · exact walk_eq_ok_iff.2 (.inl hend)
    · cases hroom
  | succ room ih =>
    obtain hend | ⟨name, base, room', hnext, hroom, hvisited, hbase, h⟩ := walk_eq_ok_iff.1 h
    · exact walk_eq_ok_iff.2 (.inl hend)
    · cases hroom
      exact walk_eq_ok_iff.2
        (.inr ⟨name, base, room, hnext, rfl, hvisited, hsource name base hbase, ih h⟩)

/-- Every schema that a walk meets is one it begins with or one of the source. -/
theorem mem_of_walk (h : walk source maxDepth start room visited walked next = .ok chain)
    {b : Blueprint} (hb : b ∈ chain) : b ∈ walked ∨ ∃ n, source n = .ok (some b) := by
  induction room generalizing visited walked next with
  | zero =>
    obtain ⟨-, rfl⟩ | ⟨name, base, room', -, hroom, -⟩ := walk_eq_ok_iff.1 h
    · exact .inl hb
    · cases hroom
  | succ room ih =>
    obtain ⟨-, rfl⟩ | ⟨name, base, room', -, hroom, -, hbase, h⟩ := walk_eq_ok_iff.1 h
    · exact .inl hb
    · cases hroom
      rcases ih h with hmem | hsource
      · rcases List.mem_append.1 hmem with hmem | hmem
        · exact .inl hmem
        · obtain rfl := List.mem_singleton.1 hmem
          exact .inr ⟨name, hbase⟩
      · exact .inr hsource

/-- The schemas that a walk begins with are in the chain. -/
theorem mem_of_mem_walked (h : walk source maxDepth start room visited walked next = .ok chain)
    {b : Blueprint} (hb : b ∈ walked) : b ∈ chain := by
  induction room generalizing visited walked next with
  | zero =>
    obtain ⟨-, rfl⟩ | ⟨name, base, room', -, hroom, -⟩ := walk_eq_ok_iff.1 h
    · exact hb
    · cases hroom
  | succ room ih =>
    obtain ⟨-, rfl⟩ | ⟨name, base, room', -, hroom, -, -, h⟩ := walk_eq_ok_iff.1 h
    · exact hb
    · cases hroom
      exact ih h (List.mem_append_left _ hb)

/-- The base of a schema is in its chain. -/
theorem mem_chain_of_base {b base : Blueprint} {name : String}
    (h : b.chain source maxDepth = .ok chain) (hbase : b.base = some name)
    (hsource : source name = .ok (some base)) : base ∈ chain := by
  unfold Blueprint.chain at h
  rw [hbase] at h
  obtain ⟨hnone, -⟩ | ⟨name', base', room', hname, -, -, hsource', h⟩ := walk_eq_ok_iff.1 h
  · cases hnone
  · cases hname
    rw [hsource] at hsource'
    cases hsource'
    exact mem_of_mem_walked h (by simp)

theorem Bases.unique {l l' : List Blueprint} (h : Bases source next l) (h' : Bases source next l') :
    l = l' := by
  induction h generalizing l' with
  | nil => cases h'; rfl
  | cons h _ ih =>
    cases h' with
    | cons h' hl' =>
      obtain rfl := Option.some.inj (Except.ok.inj (h.symm.trans h'))
      rw [ih hl']

/-- A chain goes on as that of the base does. -/
theorem chain_eq_cons {maxDepth' : Nat} {b base : Blueprint} {name : String}
    {bases : List Blueprint} (h : b.chain source maxDepth = .ok chain) (hbase : b.base = some name)
    (hsource : source name = .ok (some base)) (hbases : base.chain source maxDepth' = .ok bases) :
    chain = b :: bases := by
  obtain ⟨l, rfl, hl⟩ := bases_of_walk h
  obtain ⟨l', rfl, hl'⟩ := bases_of_walk hbases
  rw [hbase] at hl
  exact congrArg (b :: ·) (hl.unique (.cons hsource hl'))

theorem resolve_mono {config : ResolutionConfig} {b : Blueprint} {schema : Schema}
    (hsource : ∀ n b, source n = .ok (some b) → source' n = .ok (some b))
    (h : b.resolve source config = .ok schema) : b.resolve source' config = .ok schema := by
  obtain ⟨s, hs, h⟩ := bind_eq_ok_iff.1 h
  have hs : b.merge source config.maxDepth = .ok s := mapError_eq_ok_iff.1 hs
  obtain ⟨chain, hchain, hs⟩ := bind_eq_ok_iff.1 hs
  have hs' : b.merge source' config.maxDepth = .ok s :=
    bind_eq_ok_iff.2 ⟨chain, walk_mono hsource hchain, hs⟩
  rw [resolve, hs', lift_ok]
  exact h

end Blueprint

open Container

private theorem mem_properties_attributes {levels : List (Container Attribute)}
    {c : Container Attribute} (h : Flattens Attribute.Inherits levels c) {p : Property}
    (hp : p ∈ c.properties) : ∃ level ∈ levels, p ∈ level.properties := by
  obtain ⟨a, ha, hpa⟩ := List.mem_filterMap.1 hp
  obtain ⟨n, hn⟩ := SortedMap.mem_values_iff.1 ha
  have hproperty := (h.made_of n a hn).property_eq
  rw [hpa, eq_comm] at hproperty
  obtain ⟨d, hd, hpd⟩ := List.exists_of_findSome?_eq_some hproperty
  obtain ⟨level, hlevel, hmem⟩ := exists_mem_definitionsOf hd
  exact ⟨level, hlevel, List.mem_filterMap.2 ⟨d, (mem_definitionsOf hmem).1, hpd⟩⟩

/-- Flattened definitions refer to properties of the levels only. -/
theorem Definitions.Flattens.mem_properties {levels : List Definitions} {d : Definitions}
    (h : Flattens levels d) {p : Property} (hp : p ∈ d.properties) :
    ∃ level ∈ levels, p ∈ level.properties := by
  rw [properties_eq] at hp
  rcases List.mem_append.1 hp with hp | hp
  · obtain ⟨c, hc, hp⟩ := mem_properties_attributes h.attributes hp
    obtain ⟨level, hlevel, rfl⟩ := List.mem_map.1 hc
    exact ⟨level, hlevel, by rw [properties_eq]; exact List.mem_append_left _ hp⟩
  · obtain ⟨x, hx, hp⟩ := List.mem_flatMap.1 hp
    obtain ⟨n, hn⟩ := SortedMap.mem_values_iff.1 hx
    obtain ⟨c, hc, hp⟩ := mem_properties_attributes (h.series.made_of n x hn).attributes_flattens hp
    obtain ⟨y, hy, rfl⟩ := List.mem_map.1 hc
    obtain ⟨e, he, hmem⟩ := exists_mem_definitionsOf hy
    obtain ⟨level, hlevel, rfl⟩ := List.mem_map.1 he
    refine ⟨level, hlevel, ?_⟩
    rw [properties_eq]
    exact List.mem_append_right _ (List.mem_flatMap.2 ⟨y, (mem_definitionsOf hmem).1, hp⟩)

/-- A resolved schema is frozen, is that of the blueprint, and refers to properties of its chain. -/
theorem Blueprint.resolve_eq_ok {source : Source} {config : ResolutionConfig} {b : Blueprint}
    {schema : Schema} (h : b.resolve source config = .ok schema) :
    schema.surrogate = b.surrogate ∧ schema.definitions.Frozen ∧ ∀ p ∈ schema.properties,
      ∃ b', (b' = b ∨ ∃ n, source n = .ok (some b')) ∧ p ∈ b'.properties := by
  obtain ⟨chain, d, hchain, hd, rfl⟩ := merge_eq_ok (merge_of_resolve h)
  have hflattens := flatten_flattens hd
  refine ⟨rfl, hflattens.frozen, fun p hp => ?_⟩
  obtain ⟨level, hlevel, hp⟩ := hflattens.mem_properties hp
  obtain ⟨b', hb', rfl⟩ := List.mem_map.1 hlevel
  refine ⟨b', ?_, hp⟩
  exact (mem_of_walk hchain hb').imp_left List.mem_singleton.1

end ChronicleMeta
