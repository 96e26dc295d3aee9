import ChronicleMeta.Proofs.Cache.Effect

/-!
What the answers of a cache tell about it: the order in which its chronicles were last used, and what
has become of those that were stored.
-/

namespace ChronicleMeta.Cache

def history (c : Cache) : List Request → List (Request × Except Failure Reply)
  | [] => []
  | r :: rs => (r, (c.serve r).result) :: (c.serve r).state.history rs

/-- What holds of a cache and of notes on its answers, and is kept by every effect, holds after any
requests. -/
theorem run_history {σ : Type} (note : Nat → σ → Request × Except Failure Reply → σ)
    {P : σ → Cache → Prop}
    (hstep : ∀ {s c c' r answer}, P s c → c.Indexed → Effect c r answer c' →
      P (note c.capacity s (r, answer)) c')
    {s : σ} {c : Cache} (hi : c.Indexed) (h : P s c) (rs : List Request) :
    P ((c.history rs).foldl (note c.capacity) s) (c.run rs) := by
  induction rs generalizing s c with
  | nil => exact h
  | cons r rs ih =>
    have he := hi.effect r
    have hrun := ih (hi.serve r) (hstep h hi he)
    rw [he.capacity] at hrun
    exact hrun

/-- A list of identities, the latest used first, and the counts of what has been stored. -/
structure Ledger where
  order : List Identity := []
  initial : Nat := 0
  stored : Nat := 0
  evicted : Nat := 0
  replaced : Nat := 0
  removed : Nat := 0

namespace Ledger

/-- The identity is the latest used. -/
def touch (l : Ledger) (k : Identity) : Ledger := { l with order := k :: l.order.erase k }

/-- A chronicle is stored anew under the identity. Where there is no room for a new one, the identity
that has not been used for the longest time is dropped. -/
def store (capacity : Nat) (l : Ledger) (k : Identity) : Ledger :=
  let l := { l with stored := l.stored + 1 }
  if k ∈ l.order then { l.touch k with replaced := l.replaced + 1 }
  else if l.order.length < capacity then { l with order := k :: l.order }
  else { l with order := k :: l.order.dropLast, evicted := l.evicted + 1 }

/-- The ledger after a request that was answered. -/
def note (capacity : Nat) (l : Ledger) : Request × Except Failure Reply → Ledger
  | (.store x, .ok (.chronicle (some _))) => x.surrogate.identity?.elim l (l.store capacity)
  | (.store x, .ok (.chronicle none)) => x.surrogate.identity?.elim l l.touch
  | (.lookUp s, .ok (.chronicle (some _))) => s.identity?.elim l l.touch
  | (.lookUpName _, .ok (.chronicle (some x))) => x.surrogate.identity?.elim l l.touch
  | (.clearChronicle s, .ok (.dropped true)) =>
    { l with order := s.identity?.elim l.order l.order.erase, removed := l.removed + 1 }
  | (.clear, _) => { l with order := [], removed := l.removed + l.order.length }
  | (.resetStats, _) => { order := l.order, initial := l.order.length }
  | _ => l

/-- The ledger of a cache that was empty at first. -/
def ofHistory (capacity : Nat) (es : List (Request × Except Failure Reply)) : Ledger :=
  es.foldl (note capacity) {}

/-- Each chronicle stored is there, or has been evicted, replaced or removed. -/
def Balances (l : Ledger) : Prop :=
  l.initial + l.stored = l.order.length + l.evicted + l.replaced + l.removed

/-- The ledger is right about the cache. -/
structure Tells (l : Ledger) (c : Cache) : Prop where
  order : c.chronicles.map Prod.fst = l.order
  bounded : l.order.length ≤ c.capacity
  stores : c.stats.stores = l.stored
  evictions : c.stats.evictions = l.evicted
  balance : l.Balances

variable {l : Ledger} {c c' : Cache} {k : Identity} {x : Chronicle}

theorem tells_empty (capacity : Nat) (h : 0 < capacity) : Tells {} (Cache.empty capacity h) :=
  ⟨rfl, Nat.zero_le _, rfl, rfl, rfl⟩

theorem Tells.mem_order_iff (h : l.Tells c) : k ∈ l.order ↔ ∃ x, c.chronicles.get? k = some x := by
  rw [← h.order, ← not_iff_not, ← Recency.get?_eq_none_iff, Option.eq_none_iff_forall_ne_some,
    not_exists]

theorem Tells.isSome_lookUp_iff (h : l.Tells c) (s : Surrogate) :
    (c.lookUp s).1.isSome ↔ ∃ k ∈ l.order, s.identity? = some k := by
  simp only [lookUp_found, Option.isSome_iff_exists, Option.bind_eq_some_iff, h.mem_order_iff]
  constructor
  · rintro ⟨x, k, hk, hx⟩
    exact ⟨k, ⟨x, hx⟩, hk⟩
  · rintro ⟨k, ⟨x, hx⟩, hk⟩
    exact ⟨x, k, hk, hx⟩

theorem length_touch (hk : k ∈ l.order) : (l.touch k).order.length = l.order.length := by
  have hpos := List.length_pos_of_mem hk
  simp only [touch, List.length_cons, List.length_erase_of_mem hk]
  omega

theorem Balances.touch (h : l.Balances) (hk : k ∈ l.order) : (l.touch k).Balances := by
  rw [Balances, length_touch hk]
  exact h

theorem Tells.touch (h : l.Tells c) (hu : c.chronicles.Unique) (hx : c.chronicles.get? k = some x)
    {c' : Cache} (hchron : c'.chronicles = c.chronicles.promote k) (hcap : c'.capacity = c.capacity)
    (hstores : c'.stats.stores = c.stats.stores) (hevictions : c'.stats.evictions = c.stats.evictions) :
    (l.touch k).Tells c' := by
  have hk := h.mem_order_iff.2 ⟨x, hx⟩
  refine ⟨?_, ?_, hstores.trans h.stores, hevictions.trans h.evictions, ?_⟩
  · rw [hchron, Recency.map_fst_promote hu hx, h.order, Ledger.touch]
  · rw [length_touch hk, hcap]
    exact h.bounded
  · exact h.balance.touch hk

theorem Tells.drop (h : l.Tells c) (hu : c.chronicles.Unique) (hx : c.chronicles.get? k = some x)
    (hdropped : c.Dropped k x c') :
    Tells { l with order := l.order.erase k, removed := l.removed + 1 } c' := by
  have hk := h.mem_order_iff.2 ⟨x, hx⟩
  have hpos := List.length_pos_of_mem hk
  have hlength := List.length_erase_of_mem hk
  have hbounded := h.bounded
  have hbalance : l.initial + l.stored = _ := h.balance
  refine ⟨?_, ?_, ?_, ?_, ?_⟩
  · rw [hdropped.chronicles, Recency.map_fst_erase hu, h.order]
  · rw [hdropped.capacity, hlength]
    omega
  · rw [hdropped.stats, h.stores]
  · rw [hdropped.stats, h.evictions]
  · simp only [Balances, hlength]
    omega

theorem order_store (capacity : Nat) (l : Ledger) (k : Identity) : (l.store capacity k).order =
    if k ∈ l.order then k :: l.order.erase k
    else if l.order.length < capacity then k :: l.order
    else k :: l.order.dropLast := by
  unfold Ledger.store
  dsimp only
  split_ifs <;> rfl

theorem stored_store (capacity : Nat) (l : Ledger) (k : Identity) :
    (l.store capacity k).stored = l.stored + 1 := by
  unfold Ledger.store
  dsimp only
  split_ifs <;> rfl

theorem evicted_store (capacity : Nat) (l : Ledger) (k : Identity) : (l.store capacity k).evicted =
    l.evicted + if k ∉ l.order ∧ capacity ≤ l.order.length then 1 else 0 := by
  unfold Ledger.store
  dsimp only
  by_cases hk : k ∈ l.order
  · simp [hk, Ledger.touch]
  · by_cases hlt : l.order.length < capacity
    · simp [hk, hlt, Nat.not_le.2 hlt]
    · simp [hk, hlt, Nat.not_lt.1 hlt]

theorem length_store_le {capacity : Nat} (hpos : 0 < capacity) (h : l.order.length ≤ capacity) :
    (l.store capacity k).order.length ≤ capacity := by
  rw [order_store]
  split_ifs with hk hlt
  · have htouch := length_touch hk
    exact Nat.le_trans (Nat.le_of_eq htouch) h
  · exact hlt
  · rw [List.length_cons, List.length_dropLast]
    omega

theorem Balances.store {capacity : Nat} (hpos : 0 < capacity) (h : l.Balances) :
    (l.store capacity k).Balances := by
  unfold Balances at h ⊢
  unfold Ledger.store
  dsimp only
  split_ifs with hk hlt
  · have htouch := length_touch hk
    simp only [Ledger.touch] at htouch ⊢
    omega
  · simp only [List.length_cons]
    omega
  · simp only [List.length_cons, List.length_dropLast]
    omega

/-- A placed chronicle takes the place of that of its identity, or a free one, or the last one. -/
theorem Tells.store (h : l.Tells c) (hu : c.chronicles.Unique) (hplaced : c.Placed k x c') :
    (l.store c.capacity k).Tells c' := by
  have hlength : c.chronicles.length = l.order.length := by rw [← h.order, List.length_map]
  have hevicts := Recency.any_push c.capacity_pos c.chronicles k x
  rw [h.order, hlength] at hevicts
  refine ⟨?_, ?_, ?_, ?_, h.balance.store c.capacity_pos⟩
  · rw [hplaced.chronicles, Recency.map_fst_push hu, h.order, hlength, order_store]
  · rw [hplaced.capacity]
    exact length_store_le c.capacity_pos h.bounded
  · rw [hplaced.stats, statsWith, h.stores, stored_store]
  · simp only [hplaced.stats, statsWith, h.evictions, evicted_store, hevicts]

/-- A ledger that is right stays right. -/
theorem Tells.note (h : l.Tells c) (hi : c.Indexed) {r : Request} {answer : Except Failure Reply}
    (he : Effect c r answer c') : (l.note c.capacity (r, answer)).Tells c' := by
  have hu := hi.counts.unique
  cases he with
  | refused | absent => exact h
  | missed | missedName => exact ⟨h.order, h.bounded, h.stores, h.evictions, h.balance⟩
  | known hk hcached =>
    simp only [Ledger.note, hk, Option.elim_some]
    exact h.touch hu hcached rfl rfl rfl rfl
  | found hk hx =>
    simp only [Ledger.note, hk, Option.elim_some]
    exact h.touch hu hx rfl rfl rfl rfl
  | foundName hn hx =>
    simp only [Ledger.note, hi.owned _ _ hx, Option.elim_some]
    exact h.touch hu hx rfl rfl rfl rfl
  | placed hk hplaced =>
    simp only [Ledger.note, hk, Option.elim_some]
    exact h.store hu hplaced
  | dropped hk hx hdropped =>
    simp only [Ledger.note, hk, Option.elim_some]
    exact h.drop hu hx hdropped
  | cleared =>
    have hbalance : l.initial + l.stored = _ := h.balance
    refine ⟨rfl, Nat.zero_le _, h.stores, h.evictions, ?_⟩
    simp only [Balances, Ledger.note, List.length_nil]
    omega
  | reset => exact ⟨h.order, h.bounded, rfl, rfl, rfl⟩

theorem initial_store (capacity : Nat) (l : Ledger) (k : Identity) :
    (l.store capacity k).initial = l.initial := by
  unfold Ledger.store
  dsimp only
  split_ifs <;> rfl

theorem initial_note (capacity : Nat) (l : Ledger) {e : Request × Except Failure Reply}
    (he : e.1 ≠ .resetStats) : (l.note capacity e).initial = l.initial := by
  unfold Ledger.note
  split
  case h_1 x _ =>
    cases x.surrogate.identity? with
    | none => rfl
    | some k => exact initial_store capacity l k
  case h_2 x | h_4 x => cases x.surrogate.identity? <;> rfl
  case h_3 s _ => cases s.identity? <;> rfl
  case h_7 => exact absurd rfl he
  all_goals rfl

theorem initial_ofHistory (capacity : Nat) {es : List (Request × Except Failure Reply)}
    (hes : .resetStats ∉ es.map Prod.fst) : (ofHistory capacity es).initial = 0 := by
  have hall : ∀ l : Ledger, (es.foldl (note capacity) l).initial = l.initial := by
    induction es with
    | nil => exact fun _ => rfl
    | cons e es ih =>
      intro l
      rw [List.map_cons, List.mem_cons, not_or] at hes
      exact (ih hes.2 _).trans (initial_note capacity l (Ne.symm hes.1))
  exact hall {}

end Ledger

theorem map_fst_history (c : Cache) (rs : List Request) : (c.history rs).map Prod.fst = rs := by
  induction rs generalizing c with
  | nil => rfl
  | cons r rs ih => rw [history, List.map_cons, ih]

/-- After any requests, the ledger of the answers is right about the cache. -/
theorem tells_run (capacity : Nat) (h : 0 < capacity) (rs : List Request) :
    (Ledger.ofHistory capacity ((Cache.empty capacity h).history rs)).Tells
      ((Cache.empty capacity h).run rs) :=
  run_history Ledger.note (fun htells hi he => htells.note hi he)
    (indexed_empty capacity h) (Ledger.tells_empty capacity h) rs

end ChronicleMeta.Cache
