import ChronicleMeta.Proofs.Container.Inheritance

/-!
When a level can be laid over others. Its definitions are merged in the ascending order of their
numbers, and each result is judged at once: it has to be one of the type asked for, and its name must
not be that of another component at that moment. Components of lower numbers have the names of the
result by then, and those of higher numbers still have the inherited ones.
-/

namespace ChronicleMeta.Container

open Component

variable {T : Type} [Component T]

/-- Each component is under its own number. -/
def Keyed (c : Container T) : Prop := ∀ n x, c.get? n = some x → number x = n

/-- The components of the level laid over the bases fit, and have names of their own. -/
structure Fits (fits : List T → Prop) (nameOf : List T → Option String) (level : Container T)
    (bases : List (Container T)) : Prop where
  pairs : ∀ n, level.definitionsOf n ≠ [] → fits (inForce n (level :: bases))
  names : ∀ m n s, nameOf (inForce m (level :: bases)) = some s →
    nameOf (inForce n (level :: bases)) = some s → m = n

/-- No definition of the level takes a name that a component of a higher number inherits, not even one
that the level gives another name. -/
def Untaken (nameOf : List T → Option String) (level : Container T) (bases : List (Container T)) :
    Prop :=
  ∀ m n s, level.definitionsOf m ≠ [] → m < n → level.removes n = false →
    nameOf (inForce m (level :: bases)) = some s → nameOf (inForce n bases) ≠ some s

/-- A way to merge definitions of which it is known when a merge succeeds and which name results.
Definitions are taken to be well formed. -/
structure JudgedRule (empty : UInt32 → T) (merge : T → T → Except Error T) (made : List T → T → Prop)
    (wellFormed : T → Prop) (fits : List T → Prop) (nameOf : List T → Option String) : Prop
    extends MergeRule empty merge made where
  nameOf_nil : nameOf [] = none
  name?_eq : ∀ ds x, made ds x → name? x = nameOf ds
  merge_ok_iff : ∀ ds x d, made ds x → wellFormed d → ((∃ y, merge x d = .ok y) ↔ fits (d :: ds))

variable {empty : UInt32 → T} {merge : T → T → Except Error T} {made : List T → T → Prop}
  {wellFormed : T → Prop} {fits : List T → Prop} {nameOf : List T → Option String}
  {defs : UInt32 → List T} {c : Container T}

/-- What is held has names of its own. -/
theorem Holds.eq_of_nameOf (hrule : JudgedRule empty merge made wellFormed fits nameOf)
    (h : Holds made defs c) {m n : UInt32} {s : String} (hm : nameOf (defs m) = some s)
    (hn : nameOf (defs n) = some s) : m = n := by
  have hname : ∀ k, nameOf (defs k) = some s →
      ∃ x, c.draft.byNumber.get? k = some x ∧ name? x = some s := by
    intro k hk
    have hslot := h.slot k
    cases hx : c.draft.byNumber.get? k with
    | none =>
      rw [hx] at hslot
      rw [show defs k = [] from hslot, hrule.nameOf_nil] at hk
      cases hk
    | some x =>
      rw [hx] at hslot
      exact ⟨x, rfl, (hrule.name?_eq _ x hslot.2).trans hk⟩
  obtain ⟨x, hx, hxs⟩ := hname m hm
  obtain ⟨y, hy, hys⟩ := hname n hn
  exact h.consistent.eq_of_name hx hy hxs hys

/-- A definition is merged exactly if the result fits and no other component has its name. -/
theorem Holds.mergeDefinition_ok_iff (hrule : JudgedRule empty merge made wellFormed fits nameOf)
    (h : Holds made defs c) {x : T} (hx : wellFormed x) :
    (∃ c', Container.mergeDefinition empty merge c x = .ok c') ↔
      fits (x :: defs (number x)) ∧
        ∀ s, nameOf (x :: defs (number x)) = some s → ∀ m, m ≠ number x → nameOf (defs m) ≠ some s := by
  have hunnamed : name? (setEditable true (empty (number x))) = none := by
    rw [hrule.name?_eq _ _ (hrule.made_empty _), hrule.nameOf_nil]
  obtain ⟨added, c₁, hadd⟩ := c.add_ok_of_name?_eq_none hunnamed
  obtain ⟨-, hcons, ⟨y, hy, hmade⟩, hold⟩ := h.addEmpty hrule.toMergeRule hadd
  have hmodify := Index.modify_ok_iff hcons hy (f := fun z => (merge z x).map ((), ·))
  have hmerge : (∃ c', Container.mergeDefinition empty merge c x = .ok c') ↔
      ∃ r, c₁.draft.modify (number x) (fun z => (merge z x).map ((), ·)) = .ok r := by
    rw [← editComponent_ok_iff]
    unfold Container.mergeDefinition
    rw [hadd, ok_bind]
    constructor
    · rintro ⟨c', hc'⟩
      obtain ⟨r, hr, -⟩ := bind_eq_ok_iff.1 hc'
      exact ⟨r, hr⟩
    · rintro ⟨r, hr⟩
      exact ⟨r.2, bind_eq_ok_iff.2 ⟨r, hr, rfl⟩⟩
  -- the other components are those that were held before
  have hother : ∀ s m, m ≠ number x →
      ((∃ z, c₁.draft.byNumber.get? m = some z ∧ name? z = some s) ↔ nameOf (defs m) = some s) := by
    intro s m hm
    rw [hold m hm]
    have hslot := h.slot m
    cases hz : c.draft.byNumber.get? m with
    | none =>
      rw [hz] at hslot
      simp [show defs m = [] from hslot, hrule.nameOf_nil]
    | some z =>
      rw [hz] at hslot
      simp [hrule.name?_eq _ z hslot.2]
  rw [hmerge, hmodify, ← hrule.merge_ok_iff _ y x hmade hx]
  constructor
  · rintro ⟨u, z, hz, hfree⟩
    obtain ⟨w, hw, he⟩ := map_eq_ok_iff.1 hz
    cases he
    refine ⟨⟨z, hw⟩, fun s hs m hm htaken => hm ?_⟩
    obtain ⟨v, hv, hvs⟩ := (hother s m hm).2 htaken
    exact hfree s ((hrule.name?_eq _ z (hrule.made_merge _ _ _ _ hmade hw)).trans hs) m v hv hvs
  · rintro ⟨⟨z, hz⟩, hfree⟩
    refine ⟨(), z, map_eq_ok_iff.2 ⟨z, hz, rfl⟩, fun s hs m v hv hvs => ?_⟩
    by_contra hm
    have hname := (hrule.name?_eq _ z (hrule.made_merge _ _ _ _ hmade hz)).symm.trans hs
    exact hfree s hname m hm ((hother s m hm).1 ⟨v, hv, hvs⟩)

/-- The definitions of each number with those of the list put before them, the last one first. -/
private def laid (l : List T) (defs : UInt32 → List T) (n : UInt32) : List T :=
  (l.filter (number · = n)).reverse ++ defs n

private theorem laid_of_forall_ne {l : List T} {n : UInt32} (h : ∀ y ∈ l, number y ≠ n) :
    laid l defs n = defs n := by
  have hnone : l.filter (number · = n) = [] := by simpa using h
  rw [laid, hnone]
  rfl

private theorem laid_cons (x : T) (l : List T) (n : UInt32) :
    laid (x :: l) defs n = laid l (fun k => if k = number x then x :: defs k else defs k) n := by
  unfold laid
  by_cases hn : number x = n
  · simp [hn]
  · simp [hn, Ne.symm hn]

/-- Definitions in the ascending order of their numbers are merged exactly if what results fits and
has names of its own, and none takes a name that a higher number had before. -/
private theorem Holds.mergeDefinitions_ok_iff
    (hrule : JudgedRule empty merge made wellFormed fits nameOf) (h : Holds made defs c) {l : List T}
    (hl : l.Pairwise fun x y => number x < number y) (hwell : ∀ x ∈ l, wellFormed x) :
    (∃ c', l.foldlM (Container.mergeDefinition empty merge) c = .ok c') ↔
      (∀ x ∈ l, fits (laid l defs (number x))) ∧
      (∀ m n s, nameOf (laid l defs m) = some s → nameOf (laid l defs n) = some s → m = n) ∧
      ∀ x ∈ l, ∀ n s, number x < n → nameOf (laid l defs (number x)) = some s →
        nameOf (defs n) ≠ some s := by
  induction l generalizing c defs with
  | nil =>
    have hnames : ∀ m n s, nameOf (defs m) = some s → nameOf (defs n) = some s → m = n :=
      fun m n s => h.eq_of_nameOf hrule
    simpa [laid, pure, Except.pure] using hnames
  | cons x l ih =>
    obtain ⟨hx, hl⟩ := List.pairwise_cons.1 hl
    obtain ⟨hwx, hwell⟩ := List.forall_mem_cons.1 hwell
    -- the definition of the first number is the only one of this number
    have hself : laid (x :: l) defs (number x) = x :: defs (number x) := by
      rw [laid_cons, laid_of_forall_ne fun y hy => (UInt32.ne_of_lt (hx y hy)).symm, if_pos rfl]
    have hfirst := h.mergeDefinition_ok_iff hrule hwx
    simp only [laid_cons, List.foldlM_cons, List.forall_mem_cons] at hself ⊢
    rw [hself]
    constructor
    · rintro ⟨c', hc'⟩
      obtain ⟨c₁, hc₁, hrest⟩ := bind_eq_ok_iff.1 hc'
      obtain ⟨hfits, hfree⟩ := hfirst.1 ⟨c₁, hc₁⟩
      obtain ⟨hfits', hnames, huntaken⟩ :=
        (ih (h.mergeDefinition hrule.toMergeRule hc₁) hl hwell).1 ⟨c', hrest⟩
      refine ⟨⟨hfits, hfits'⟩, hnames, fun n s hn hs => hfree s hs n (UInt32.ne_of_lt hn).symm,
        fun y hy n s hn hs => ?_⟩
      have hne : n ≠ number x := (UInt32.ne_of_lt (UInt32.lt_trans (hx y hy) hn)).symm
      simpa [hne] using huntaken y hy n s hn hs
    · rintro ⟨⟨hfits, hfits'⟩, hnames, hfree, huntaken⟩
      have hfree' : ∀ s, nameOf (x :: defs (number x)) = some s → ∀ m, m ≠ number x →
          nameOf (defs m) ≠ some s := by
        intro s hs m hm htaken
        rcases UInt32.lt_or_lt_of_ne hm with hlt | hgt
        · -- a lower number has no definition that is still to come
          refine hm (hnames m (number x) s ?_ (hself ▸ hs))
          rw [laid_of_forall_ne fun y hy => (UInt32.ne_of_lt (UInt32.lt_trans hlt (hx y hy))).symm,
            if_neg hm]
          exact htaken
        · exact hfree m s hgt hs htaken
      obtain ⟨c₁, hc₁⟩ := hfirst.2 ⟨hfits, hfree'⟩
      obtain ⟨c', hc'⟩ := (ih (h.mergeDefinition hrule.toMergeRule hc₁) hl hwell).2
        ⟨hfits', hnames, fun y hy n s hn hs => by
          have hne : n ≠ number x := (UInt32.ne_of_lt (UInt32.lt_trans (hx y hy) hn)).symm
          simpa [hne] using huntaken y hy n s hn hs⟩
      exact ⟨c', bind_eq_ok_iff.2 ⟨c₁, hc₁, hc'⟩⟩

theorem Keyed.pairwise_components {level : Container T} (h : level.Keyed) :
    level.components.Pairwise fun x y => number x < number y := by
  refine List.pairwise_map.2 (level.view.byNumber.ascending.imp_of_mem fun {a b} ha hb hlt => ?_)
  rw [h a.1 a.2 (SortedMap.mem_toList_iff.1 ha), h b.1 b.2 (SortedMap.mem_toList_iff.1 hb)]
  exact Std.compare_eq_lt.1 hlt

/-- A level can be laid over others exactly if what results fits and has names of its own, and no
definition takes a name that a higher number inherits. -/
theorem Holds.mergeLevel_ok_iff (hrule : JudgedRule empty merge made wellFormed fits nameOf)
    {bases : List (Container T)} (h : Holds made (inForce · bases) c) {level : Container T}
    (hkeyed : level.Keyed) (hwell : ∀ x ∈ level.components, wellFormed x) :
    (∃ c', Container.mergeLevel empty merge c level = .ok c') ↔
      Fits fits nameOf level bases ∧ Untaken nameOf level bases := by
  have hdefined : ∀ n, level.definitionsOf n ≠ [] ↔
      ∃ x ∈ level.components.filter (!isErasing ·), number x = n := by
    intro n
    simp [definitionsOf, List.filter_eq_nil_iff, and_comm, and_left_comm, and_assoc]
  have hlaid : ∀ n, laid (level.components.filter (!isErasing ·))
      (fun k => if level.removes k then [] else inForce k bases) n = inForce n (level :: bases) := by
    intro n
    simp [laid, inForce, definitionsOf, List.filter_filter]
  have hbelow : ∀ n s, nameOf (if level.removes n then [] else inForce n bases) ≠ some s ↔
      level.removes n = false → nameOf (inForce n bases) ≠ some s := by
    intro n s
    cases level.removes n <;> simp [hrule.nameOf_nil]
  have hmerge := (h.eraseLevel level).mergeDefinitions_ok_iff hrule
    (hkeyed.pairwise_components.filter (!isErasing ·)) fun x hx => hwell x (List.mem_filter.1 hx).1
  simp only [hlaid, hbelow] at hmerge
  rw [Container.mergeLevel, hmerge]
  constructor
  · rintro ⟨hfits, hnames, huntaken⟩
    refine ⟨⟨fun n hn => ?_, hnames⟩, fun m n s hm hlt hkeep hs => ?_⟩
    · obtain ⟨x, hx, rfl⟩ := (hdefined n).1 hn
      exact hfits x hx
    · obtain ⟨x, hx, rfl⟩ := (hdefined m).1 hm
      exact huntaken x hx n s hlt hs hkeep
  · rintro ⟨⟨hpairs, hnames⟩, huntaken⟩
    refine ⟨fun x hx => hpairs _ ((hdefined _).2 ⟨x, hx, rfl⟩), hnames, fun x hx n s hlt hs hkeep => ?_⟩
    exact huntaken _ n s ((hdefined _).2 ⟨x, hx, rfl⟩) hlt hkeep hs

end ChronicleMeta.Container
