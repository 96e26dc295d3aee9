import ChronicleMeta.Proofs.Cache.Snapshots

/-!
A cache keeps the chronicles that were used last. What it answers agrees with a list of identities in
the order of their last use, and with a table of full names.
-/

namespace ChronicleMeta.Cache

variable {c c' : Cache}

/-- No other cached chronicle has the full name of the chronicle. -/
def Free (c : Cache) (x : Chronicle) : Prop :=
  ∀ e ∈ c.chronicles, e.2.fullName = x.fullName → x.surrogate.identity? = some e.1

instance (c : Cache) (x : Chronicle) : Decidable (c.Free x) :=
  inferInstanceAs (Decidable (∀ e ∈ c.chronicles, _ → _))

theorem Effect.findable {r : Request} {answer : Except Failure Reply} (he : Effect c r answer c')
    (hi : c.Indexed) (h : c.Findable) (hfree : ∀ x, r = .store x → c.Free x) : c'.Findable := by
  have hu := hi.counts.unique
  have hp := fun k => (Recency.perm_promote hu k).symm
  cases he with
  | refused | missed | missedName | absent | reset => exact h
  | known | found | foundName => exact h.of_perm hu (hp _) rfl
  | placed hk hplaced =>
    refine h.place hu (fun j y hy hname => ?_) hplaced.chronicles hplaced.names
    have hj := hfree _ rfl (j, y) (Recency.mem_of_get? hy) hname
    exact Option.some.inj (hj.symm.trans hk)
  | dropped hk hx hdropped => exact h.drop hdropped.chronicles hdropped.names
  | cleared =>
    intro k x hx
    cases hx

/-- If no full name is ever taken from another chronicle, the chronicles are found by their names. -/
theorem Findable.run (h : c.Findable) (hi : c.Indexed) {rs : List Request}
    (hfree : ∀ before x after, rs = before ++ .store x :: after → (c.run before).Free x) :
    (c.run rs).Findable := by
  induction rs generalizing c with
  | nil => exact h
  | cons r rs ih =>
    refine ih ((hi.effect r).findable hi h fun x hr => ?_) (hi.serve r) fun before x after heq => ?_
    · exact hfree [] x rs (by rw [hr]; rfl)
    · exact hfree (r :: before) x after (by rw [heq]; rfl)

theorem Findable.lookUpName_eq (h : c.Findable) (hu : c.chronicles.Unique)
    {e : Identity × Chronicle} (he : e ∈ c.chronicles) :
    (c.lookUpName e.2.fullName).1 = some e.2 := by
  have hget : c.chronicles.get? e.1 = some e.2 := (Recency.get?_eq_some_iff hu).2 he
  rw [lookUpName_found, h e.1 e.2 hget, Option.bind_some, hget]

/-- What a look-up by full name finds is cached under its own identity and has the full name. -/
theorem Indexed.of_lookUpName (h : c.Indexed) {n : String} {x : Chronicle}
    (hx : (c.lookUpName n).1 = some x) :
    x.fullName = n ∧ ∃ k, x.surrogate.identity? = some k ∧ c.chronicles.get? k = some x := by
  rw [lookUpName_found] at hx
  obtain ⟨k, hk, hx⟩ := Option.bind_eq_some_iff.1 hx
  obtain ⟨y, hy, hname⟩ := h.named n k hk
  obtain rfl : x = y := Option.some.inj (hx.symm.trans hy)
  exact ⟨hname, k, h.owned k x hx, hx⟩

theorem capacity_run (capacity : Nat) (h : 0 < capacity) (rs : List Request) :
    ((Cache.empty capacity h).run rs).capacity = capacity :=
  (run_invariant (P := fun c => c.Indexed ∧ c.capacity = capacity)
    (fun _ r hc => ⟨hc.1.serve r, (hc.1.effect r).capacity.trans hc.2⟩)
    ⟨indexed_empty capacity h, rfl⟩ rs).2

/-- After any requests to a cache that was empty at first, the identities of the cached chronicles are
those of the ledger, in the order of their last use, and there are not more than there is room for. A
look-up by surrogate succeeds exactly if the identity is among them. A look-up by full name gives the
very snapshot that the table of full names holds, which has the full name and is cached under its own
identity; and it finds each cached chronicle, if none was ever stored under the full name of another
one. Of the chronicles stored, those that are not there any more have been evicted, replaced or
removed. -/
theorem refines_run (capacity : Nat) (h : 0 < capacity) (rs : List Request) :
    let c := (Cache.empty capacity h).run rs
    let ledger := Ledger.ofHistory capacity ((Cache.empty capacity h).history rs)
    let tables := Tables.ofHistory capacity ((Cache.empty capacity h).history rs)
    c.chronicles.map Prod.fst = ledger.order ∧ c.size ≤ capacity ∧
    (∀ s, (c.lookUp s).1.isSome ↔ ∃ k ∈ ledger.order, s.identity? = some k) ∧
    (∀ n x, (c.lookUpName n).1 = some x →
      x.fullName = n ∧ ∃ k, x.surrogate.identity? = some k ∧ c.chronicles.get? k = some x) ∧
    (c.chronicles = tables.byIdentity.map (Prod.map id Snapshot.chronicle) ∧
      (∀ n, (c.lookUpName n).1 = (tables.byName.get? n).map (·.chronicle)) ∧
      ∀ n s, tables.byName.get? n = some s → s.chronicle.fullName = n ∧
        ∃ k, s.chronicle.surrogate.identity? = some k ∧ tables.byIdentity.get? k = some s) ∧
    ((∀ before x after, rs = before ++ .store x :: after →
        ((Cache.empty capacity h).run before).Free x) →
      ∀ e ∈ c.chronicles, (c.lookUpName e.2.fullName).1 = some e.2) ∧
    c.stats.evictions = ledger.evicted ∧
    (.resetStats ∉ rs →
      c.stats.stores = c.size + c.stats.evictions + ledger.replaced + ledger.removed) := by
  intro c ledger tables
  have hi : c.Indexed := indexed_run capacity h rs
  have htells : ledger.Tells c := tells_run capacity h rs
  have hmirrors : tables.Mirrors c := mirrors_run capacity h rs
  have hsize : c.size = ledger.order.length := by rw [← htells.order, List.length_map, size]
  refine ⟨htells.order, ?_, htells.isSome_lookUp_iff, fun n x hx => hi.of_lookUpName hx,
    ⟨hmirrors.chronicles, hmirrors.lookUpName_eq, hmirrors.held⟩, fun hfree e he => ?_,
    htells.evictions, fun hreset => ?_⟩
  · calc
      c.size = ledger.order.length := hsize
      _ ≤ c.capacity := htells.bounded
      _ = capacity := capacity_run capacity h rs
  · have hempty : (Cache.empty capacity h).Findable := fun k x hx => by cases hx
    exact (hempty.run (indexed_empty capacity h) hfree).lookUpName_eq hi.counts.unique he
  · have hinitial : ledger.initial = 0 :=
      Ledger.initial_ofHistory capacity (by rwa [map_fst_history])
    have hbalance : ledger.initial + ledger.stored = _ := htells.balance
    rw [hinitial, Nat.zero_add] at hbalance
    rw [htells.stores, hbalance, hsize, htells.evictions]

/-- Three chronicles for a cache with room for two, of which the first is looked up before the third is
stored. -/
def sampleRequests : List Request :=
  [.store (sampleChronicle 1 "a"), .store (sampleChronicle 2 "b"), .lookUpName "a",
    .store (sampleChronicle 3 "c")]

/-- The second one is evicted, and the others are found by their names. -/
theorem refines_run_sample :
    ((Cache.empty 2 Nat.two_pos).run sampleRequests).chronicles.map Prod.fst =
      [⟨⟨1⟩, .chronicle, 3⟩, ⟨⟨1⟩, .chronicle, 1⟩] ∧
    (∀ e ∈ ((Cache.empty 2 Nat.two_pos).run sampleRequests).chronicles,
      (((Cache.empty 2 Nat.two_pos).run sampleRequests).lookUpName e.2.fullName).1 = some e.2) ∧
    ((Cache.empty 2 Nat.two_pos).run sampleRequests).stats.stores = 3 := by
  obtain ⟨horder, -, -, -, -, hfound, -, hbalance⟩ := refines_run 2 Nat.two_pos sampleRequests
  refine ⟨horder.trans rfl, hfound ?_, (hbalance (by simp [sampleRequests])).trans rfl⟩
  intro before x after heq
  rcases before with _ | ⟨r₁, _ | ⟨r₂, _ | ⟨r₃, _ | ⟨r₄, before⟩⟩⟩⟩ <;>
    simp only [sampleRequests, List.nil_append, List.cons_append, List.cons.injEq,
      Request.store.injEq, reduceCtorEq, false_and, and_false] at heq
  · obtain ⟨rfl, -⟩ := heq
    decide
  · obtain ⟨rfl, rfl, -⟩ := heq
    decide
  · obtain ⟨rfl, rfl, rfl, rfl, -⟩ := heq
    decide
  · simp at heq

end ChronicleMeta.Cache
