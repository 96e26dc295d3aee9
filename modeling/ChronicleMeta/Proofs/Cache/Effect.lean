import ChronicleMeta.Proofs.Cache.Names
import ChronicleMeta.Proofs.Cache.SchemaUses

/-! All that a request can do to the chronicles and the full names of a cache, with its answer. -/

namespace ChronicleMeta.Cache

variable {c c' : Cache} {k : Identity} {x : Chronicle}

/-- A chronicle whose schema is shared has been placed. -/
structure Placed (c : Cache) (k : Identity) (x : Chronicle) (c' : Cache) : Prop where
  chronicles : c'.chronicles = (c.chronicles.push c.capacity k x).2
  names : c'.names = (c.namesWithout (c.chronicles.push c.capacity k x).1).insert x.fullName k
  capacity : c'.capacity = c.capacity
  stats : c'.stats = c.statsWith k (c.chronicles.push c.capacity k x).1

/-- A cached chronicle has been dropped. -/
structure Dropped (c : Cache) (k : Identity) (x : Chronicle) (c' : Cache) : Prop where
  chronicles : c'.chronicles = c.chronicles.erase k
  names : c'.names = (c.forgetName k x).names
  capacity : c'.capacity = c.capacity
  stats : c'.stats = c.stats

/-- A cached chronicle has become the latest used. -/
def promoted (c : Cache) (k : Identity) : Cache := { c with chronicles := c.chronicles.promote k }

/-- The effect of a request on the cache, by what it is answered with. -/
inductive Effect (c : Cache) : Request → Except Failure Reply → Cache → Prop
  | refused {x e} : Effect c (.store x) (.error e) c
  | known {x k cached} (hk : x.surrogate.identity? = some k)
      (hcached : c.chronicles.get? k = some cached) :
      Effect c (.store x) (.ok (.chronicle none)) (c.promoted k)
  | placed {x k shared c'} (hk : x.surrogate.identity? = some k)
      (hplaced : Placed c k { x with schema := shared } c') :
      Effect c (.store x) (.ok (.chronicle (some { x with schema := shared }))) c'
  | found {s k x} (hk : s.identity? = some k) (hx : c.chronicles.get? k = some x) :
      Effect c (.lookUp s) (.ok (.chronicle (some x))) ((c.promoted k).record true)
  | missed {s} (hs : ∀ k, s.identity? = some k → c.chronicles.get? k = none) :
      Effect c (.lookUp s) (.ok (.chronicle none)) (c.record false)
  | foundName {n k x} (hn : c.names.get? n = some k) (hx : c.chronicles.get? k = some x) :
      Effect c (.lookUpName n) (.ok (.chronicle (some x))) ((c.promoted k).record true)
  | missedName {n} (hn : c.names.get? n = none) :
      Effect c (.lookUpName n) (.ok (.chronicle none)) (c.record false)
  | dropped {s k x c'} (hk : s.identity? = some k) (hx : c.chronicles.get? k = some x)
      (hdropped : Dropped c k x c') : Effect c (.clearChronicle s) (.ok (.dropped true)) c'
  | absent {s} (hs : ∀ k, s.identity? = some k → c.chronicles.get? k = none) :
      Effect c (.clearChronicle s) (.ok (.dropped false)) c
  | cleared : Effect c .clear (.ok .done) c.clear
  | reset : Effect c .resetStats (.ok .done) c.resetStats

/-- The chronicles are cached under their own identities, and the full names lead to them. -/
structure Indexed (c : Cache) : Prop where
  /-- Each chronicle is there once, and its schema is counted. -/
  counts : c.Counts
  owned : ∀ k x, c.chronicles.get? k = some x → x.surrogate.identity? = some k
  named : c.Named

theorem indexed_empty (capacity : Nat) (h : 0 < capacity) : (Cache.empty capacity h).Indexed where
  counts := counts_empty capacity h
  owned k x hx := by cases hx
  named := named_of_names_eq rfl

theorem get?_promoted (hu : c.chronicles.Unique) (k j : Identity) :
    (c.promoted k).chronicles.get? j = c.chronicles.get? j :=
  Recency.get?_perm hu (Recency.perm_promote hu k).symm j

theorem promoted_of_get?_eq_none (h : c.chronicles.get? k = none) : c.promoted k = c := by
  rw [promoted, Recency.promote_of_get?_eq_none h]

/-- A request has one of the effects. -/
theorem Indexed.effect (h : c.Indexed) (r : Request) :
    Effect c r (c.serve r).result (c.serve r).state := by
  have hu := h.counts.unique
  cases r with
  | store x =>
    rcases account_tallied.store hu x (fun _ _ _ hk ha => h.counts.tallied.acquire hk ha) with
      ⟨e, hs, -⟩ | ⟨k, cached, hk, hcached, -, hs⟩ |
        ⟨k, ks, shared, c₁, c', hk, -, -, hs, -, hchron, hcap, -, hnames, hstats⟩
    · rw [Cache.serve, hs]
      exact .refused
    · rw [Cache.serve, hs]
      exact .known hk hcached
    · rw [Cache.serve, hs]
      exact .placed hk ⟨hchron, hnames, hcap, hstats⟩
  | lookUp s =>
    cases hk : s.identity? with
    | none =>
      simp only [Cache.serve, Cache.lookUp, hk]
      exact .missed (by simp [hk])
    | some k =>
      simp only [Cache.serve, Cache.lookUp, hk, lookUpIdentity]
      cases hx : c.chronicles.get? k with
      | none =>
        rw [← promoted, promoted_of_get?_eq_none hx]
        exact .missed (by simpa [hk] using hx)
      | some x => exact .found hk hx
  | lookUpName n =>
    cases hn : c.names.get? n with
    | none =>
      simp only [Cache.serve, Cache.lookUpName, hn]
      exact .missedName hn
    | some k =>
      obtain ⟨x, hx, -⟩ := h.named n k hn
      simp only [Cache.serve, Cache.lookUpName, hn, lookUpIdentity, hx]
      exact .foundName hn hx
  | clearChronicle s =>
    obtain ⟨b, c', hs, -, hcap, -, hstats, ⟨rfl, rfl, hnone⟩ | ⟨k, x, rfl, hk, hx, hchron, hnames⟩⟩ :=
      account_tallied.clearChronicle hu h.counts.tallied s
    · rw [Cache.serve, hs]
      exact .absent hnone
    · rw [Cache.serve, hs]
      exact .dropped hk hx ⟨hchron, hnames, hcap, hstats⟩
  | clear => exact .cleared
  | resetStats => exact .reset

variable {r : Request} {answer : Except Failure Reply}

/-- What is cached after a request is cached under its own identity. -/
theorem Effect.owned (he : Effect c r answer c') (h : c.Indexed) {j : Identity} {y : Chronicle}
    (hy : c'.chronicles.get? j = some y) : y.surrogate.identity? = some j := by
  have hu := h.counts.unique
  have hpromoted : ∀ {k}, (c.promoted k).chronicles.get? j = some y →
      y.surrogate.identity? = some j := fun hy => h.owned j y (get?_promoted hu _ j ▸ hy)
  cases he with
  | refused | missed | missedName | absent | reset => exact h.owned j y hy
  | known | found | foundName => exact hpromoted hy
  | placed hk hplaced =>
    rw [hplaced.chronicles] at hy
    rcases Recency.get?_of_push hu hy with ⟨rfl, rfl⟩ | hy
    · exact hk
    · exact h.owned j y hy
  | dropped hk hx hdropped =>
    rw [hdropped.chronicles, Recency.get?_erase] at hy
    split_ifs at hy
    exact h.owned j y hy
  | cleared => cases hy

theorem Effect.named (he : Effect c r answer c') (h : c.Indexed) : c'.Named := by
  have hu := h.counts.unique
  have hp := fun k => (Recency.perm_promote hu k).symm
  cases he with
  | refused | missed | missedName | absent | reset => exact h.named
  | known | found | foundName => exact h.named.of_perm hu (hp _) rfl
  | placed hk hplaced => exact h.named.place hu hplaced.chronicles hplaced.names
  | dropped hk hx hdropped => exact h.named.drop hx hdropped.chronicles hdropped.names
  | cleared => exact named_of_names_eq rfl

theorem Effect.capacity (he : Effect c r answer c') : c'.capacity = c.capacity := by
  cases he with
  | placed hk hplaced => exact hplaced.capacity
  | dropped hk hx hdropped => exact hdropped.capacity
  | _ => rfl

theorem Indexed.serve (h : c.Indexed) (r : Request) : (c.serve r).state.Indexed :=
  ⟨(h.counts.serve r).1, fun _ _ hy => (h.effect r).owned h hy, (h.effect r).named h⟩

theorem indexed_run (capacity : Nat) (h : 0 < capacity) (rs : List Request) :
    ((Cache.empty capacity h).run rs).Indexed :=
  run_invariant (P := Indexed) (fun _ r hc => hc.serve r) (indexed_empty capacity h) rs

end ChronicleMeta.Cache
