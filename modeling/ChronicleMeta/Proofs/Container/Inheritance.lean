import ChronicleMeta.Container.Basic
import ChronicleMeta.Proofs.Container.Draft

/-!
Inheritance between levels of definitions. What a number stands for is decided by the definitions
down to the level that last removes it, and laying levels over one another makes a component of
exactly these.
-/

namespace ChronicleMeta.Container

open Component

variable {T : Type} [Component T]

/-- The definitions of the number in the level, removals apart. -/
def definitionsOf (level : Container T) (n : UInt32) : List T :=
  level.components.filter fun x => number x = n && !isErasing x

/-- Whether the level removes what is inherited under the number. -/
def removes (level : Container T) (n : UInt32) : Bool :=
  level.components.any fun x => isErasing x && number x = n

/-- The definitions of the number that count, the latest first, of levels with the most derived one
first: those down to the level that removes what is below it. -/
def inForce (n : UInt32) : List (Container T) → List T
  | [] => []
  | level :: bases =>
    (level.definitionsOf n).reverse ++ if level.removes n then [] else inForce n bases

/-- Some definition counts exactly if a level has one and no more derived level removes it. -/
theorem inForce_ne_nil_iff {n : UInt32} {levels : List (Container T)} :
    inForce n levels ≠ [] ↔ ∃ derived level bases, levels = derived ++ level :: bases ∧
      level.definitionsOf n ≠ [] ∧ ∀ l ∈ derived, l.removes n = false := by
  induction levels with
  | nil => simp [inForce]
  | cons top bases ih =>
    constructor
    · intro h
      by_cases htop : top.definitionsOf n = []
      · have hkeep : top.removes n = false := by
          by_contra hr
          simp [inForce, htop, hr] at h
        have hb : inForce n bases ≠ [] := by simpa [inForce, htop, hkeep] using h
        obtain ⟨derived, level, rest, rfl, hlevel, hder⟩ := ih.1 hb
        exact ⟨top :: derived, level, rest, rfl, hlevel, by simpa [hkeep] using hder⟩
      · exact ⟨[], top, bases, rfl, htop, by simp⟩
    · rintro ⟨derived, level, rest, heq, hlevel, hder⟩
      cases derived with
      | nil =>
        obtain ⟨rfl, rfl⟩ := List.cons.inj heq
        simp [inForce, hlevel]
      | cons d derived =>
        obtain ⟨rfl, rfl⟩ := List.cons.inj heq
        have hb := ih.2 ⟨derived, level, rest, rfl, hlevel, fun l hl => hder l (by simp [hl])⟩
        have hkeep : top.removes n = false := hder top (by simp)
        simp only [inForce, hkeep, Bool.false_eq_true, if_false]
        exact List.append_ne_nil_of_right_ne_nil _ hb

theorem exists_mem_definitionsOf {n : UInt32} {x : T} {levels : List (Container T)}
    (h : x ∈ inForce n levels) : ∃ level ∈ levels, x ∈ level.definitionsOf n := by
  induction levels with
  | nil => cases h
  | cons level bases ih =>
    rcases List.mem_append.1 h with h | h
    · exact ⟨level, List.mem_cons_self, List.mem_reverse.1 h⟩
    · split_ifs at h
      · cases h
      · obtain ⟨level', hlevel, hx⟩ := ih h
        exact ⟨level', List.mem_cons_of_mem _ hlevel, hx⟩

theorem mem_definitionsOf {level : Container T} {n : UInt32} {x : T}
    (h : x ∈ level.definitionsOf n) : x ∈ level.components ∧ number x = n := by
  obtain ⟨hmem, hx⟩ := List.mem_filter.1 h
  exact ⟨hmem, of_decide_eq_true (Bool.and_eq_true_iff.1 hx).1⟩

/-- Whether `x` is a component of the definitions, the latest first, or absent as there are none. -/
def Slot (made : List T → T → Prop) (ds : List T) : Option T → Prop
  | none => ds = []
  | some x => ds ≠ [] ∧ made ds x

/-- An edit buffer, with nothing committed before, that holds under each number a component made of
the definitions of the number. -/
structure Holds (made : List T → T → Prop) (defs : UInt32 → List T) (c : Container T) : Prop where
  committed_eq : c.committed = {}
  consistent : c.draft.Consistent
  slot : ∀ n, Slot made (defs n) (c.draft.byNumber.get? n)

/-- A way to merge definitions: each one merged into a component is one definition more that this is
made of, and its number stays. -/
structure MergeRule (empty : UInt32 → T) (merge : T → T → Except Error T)
    (made : List T → T → Prop) : Prop where
  /-- The component to begin with has the number it was made for. -/
  number_empty : ∀ n, number (setEditable true (empty n)) = n
  number_merge : ∀ x d y, merge x d = .ok y → number y = number x
  made_empty : ∀ n, made [] (setEditable true (empty n))
  made_merge : ∀ ds x d y, made ds x → merge x d = .ok y → made (d :: ds) y

variable {made : List T → T → Prop} {empty : UInt32 → T} {merge : T → T → Except Error T}
  {defs : UInt32 → List T} {c c' : Container T}

theorem holds_empty : Holds made (fun _ => []) ({} : Container T) where
  committed_eq := rfl
  consistent := Index.consistent_empty
  slot _ := rfl

private theorem Holds.congr (h : Holds made defs c) {defs' : UInt32 → List T}
    (hd : ∀ n, defs n = defs' n) : Holds made defs' c :=
  funext hd ▸ h

theorem Holds.delete (h : Holds made defs c) (n : UInt32) :
    Holds made (fun k => if k = n then [] else defs k) (c.delete n) where
  committed_eq := (committed_delete c n).trans h.committed_eq
  consistent := consistent_draft_delete h.consistent n
  slot k := by
    rw [get?_draft_delete]
    split_ifs
    · rfl
    · exact h.slot k

private theorem Holds.deleteAll (h : Holds made defs c) (l : List T) :
    Holds made (fun k => if l.any (number · = k) then [] else defs k)
      (l.foldl (fun c x => c.delete (number x)) c) := by
  induction l generalizing c defs with
  | nil => simpa using h
  | cons x l ih =>
    refine (ih (h.delete (number x))).congr fun k => ?_
    by_cases hk : k = number x
    · simp [hk]
    · simp [hk, Ne.symm hk]

theorem Holds.eraseLevel (h : Holds made defs c) (level : Container T) :
    Holds made (fun k => if level.removes k then [] else defs k) (c.eraseLevel level) := by
  refine (h.deleteAll (level.components.filter isErasing)).congr fun k => ?_
  simp [removes, List.any_filter]

/-- To add an empty component leaves one made of the definitions of the number, as there was one or
there are no definitions. -/
theorem Holds.addEmpty (hrule : MergeRule empty merge made) (h : Holds made defs c) {n : UInt32}
    {added : Bool} (hadd : (c.add (empty n)).commit = .ok (added, c')) :
    c'.committed = c.committed ∧ c'.draft.Consistent ∧
      (∃ y, c'.draft.byNumber.get? n = some y ∧ made (defs n) y) ∧
      ∀ k, k ≠ n → c'.draft.byNumber.get? k = c.draft.byNumber.get? k := by
  obtain ⟨hcommitted, hadd⟩ := add_eq_ok hadd
  have hslot := h.slot n
  rcases hadd with ⟨⟨y, hy⟩, hd⟩ | hins
  · rw [hrule.number_empty] at hy
    rw [hy] at hslot
    exact ⟨hcommitted, hd ▸ h.consistent, ⟨y, by rw [hd, hy], hslot.2⟩, fun k _ => by rw [hd]⟩
  · obtain ⟨hnone, hnum, -⟩ := Index.insert_eq_ok hins
    rw [hrule.number_empty] at hnone hnum
    rw [hnone] at hslot
    have hdefs : defs n = [] := hslot
    refine ⟨hcommitted, Index.consistent_insert h.consistent hins,
      ⟨setEditable true (empty n), ?_, hdefs ▸ hrule.made_empty _⟩, fun k hk => ?_⟩
    · rw [hnum, SortedMap.get?_insert_self]
    · rw [hnum, SortedMap.get?_insert_of_ne _ hk]

theorem Holds.mergeDefinition (hrule : MergeRule empty merge made) (h : Holds made defs c) {x : T}
    (hm : mergeDefinition empty merge c x = .ok c') :
    Holds made (fun k => if k = number x then x :: defs k else defs k) c' := by
  obtain ⟨⟨added, c₁⟩, hadd, hm⟩ := bind_eq_ok_iff.1 hm
  obtain ⟨⟨o, c₂⟩, hedit, hm⟩ := bind_eq_ok_iff.1 hm
  obtain rfl : c₂ = c' := by simpa [pure, Except.pure] using hm
  obtain ⟨hcom₁, hcons₁, ⟨y, hy, hmade⟩, hold⟩ := h.addEmpty hrule hadd
  obtain ⟨hcom₂, hedit⟩ := editComponent_eq_ok hedit
  obtain ⟨hnone, -⟩ | ⟨a, -, hmod⟩ := hedit
  · simp [hy] at hnone
  obtain ⟨y', z, hy', hz, -, hnum⟩ := Index.modify_eq_ok hmod
  obtain rfl : y' = y := by simpa [hy, eq_comm] using hy'
  have hz : merge y' x = .ok z := by
    obtain ⟨w, hw, he⟩ := map_eq_ok_iff.1 hz
    cases he
    exact hw
  refine ⟨by rw [hcom₂, hcom₁, h.committed_eq], ?_, fun k => ?_⟩
  · refine Index.consistent_modify hcons₁ hmod fun u b v huv => ?_
    obtain ⟨w, hw, he⟩ := map_eq_ok_iff.1 huv
    cases he
    exact hrule.number_merge u x _ hw
  · rw [hnum, SortedMap.get?_insert]
    split_ifs with hk
    · subst hk
      exact ⟨List.cons_ne_nil _ _, hrule.made_merge _ _ _ _ hmade hz⟩
    · rw [hold k hk]
      exact h.slot k

private theorem Holds.mergeDefinitions (hrule : MergeRule empty merge made) (h : Holds made defs c)
    {l : List T} (hm : l.foldlM (Container.mergeDefinition empty merge) c = .ok c') :
    Holds made (fun k => (l.filter (number · = k)).reverse ++ defs k) c' := by
  induction l generalizing c defs with
  | nil =>
    obtain rfl : c = c' := by simpa [pure, Except.pure] using hm
    simpa using h
  | cons x l ih =>
    rw [List.foldlM_cons] at hm
    obtain ⟨c₁, hx, hm⟩ := bind_eq_ok_iff.1 hm
    refine (ih (h.mergeDefinition hrule hx) hm).congr fun k => ?_
    by_cases hk : k = number x
    · subst hk
      simp
    · simp [hk, Ne.symm hk]

/-- A level laid over levels puts its definitions before those in force below it, unless it removes
these. -/
theorem Holds.mergeLevel (hrule : MergeRule empty merge made) {levels : List (Container T)}
    (h : Holds made (inForce · levels) c) {level : Container T}
    (hm : mergeLevel empty merge c level = .ok c') :
    Holds made (inForce · (level :: levels)) c' := by
  refine ((h.eraseLevel level).mergeDefinitions hrule hm).congr fun k => ?_
  simp [inForce, definitionsOf, List.filter_filter]

/-- A container without an edit buffer that has exactly the numbers for which some definition of the
levels, the most derived first, counts, each with a component made of those that count. -/
structure Flattens (made : List T → T → Prop) (levels : List (Container T)) (c : Container T) :
    Prop where
  buffer_eq : c.buffer = none
  /-- The numbers are unique, and the names lead to the components that have them. -/
  consistent : c.committed.Consistent
  /-- A number is there exactly if a level defines it and no more derived level removes it. -/
  contains_iff : ∀ n, c.contains n ↔ ∃ derived level bases, levels = derived ++ level :: bases ∧
    level.definitionsOf n ≠ [] ∧ ∀ l ∈ derived, l.removes n = false
  made_of : ∀ n x, c.get? n = some x → made (inForce n levels) x

/-- Consolidating levels laid over one another flattens them. -/
theorem Holds.flattens [LawfulComponent T] {frozen : List T → T → Prop}
    {levels : List (Container T)} (h : Holds made (inForce · levels) c)
    (hfreeze : ∀ ds x, made ds x → frozen ds (freeze x)) :
    Flattens frozen levels c.consolidate where
  buffer_eq := buffer_consolidate c
  consistent := by
    rw [committed_consolidate h.committed_eq]
    exact Index.consistent_map h.consistent LawfulComponent.number_freeze
      LawfulComponent.name?_freeze
  contains_iff n := by
    have hslot := h.slot n
    rw [← inForce_ne_nil_iff, contains, SortedMap.contains_iff]
    change (∃ x, c.consolidate.get? n = some x) ↔ _
    rw [get?_consolidate h.committed_eq]
    cases hx : c.draft.byNumber.get? n with
    | none =>
      rw [hx] at hslot
      simpa using (show inForce n levels = [] from hslot)
    | some x =>
      rw [hx] at hslot
      simpa using hslot.1
  made_of n x hx := by
    rw [get?_consolidate h.committed_eq] at hx
    obtain ⟨y, hy, rfl⟩ := Option.map_eq_some_iff.1 hx
    have hslot := h.slot n
    rw [hy] at hslot
    exact hfreeze _ _ hslot.2

end ChronicleMeta.Container
