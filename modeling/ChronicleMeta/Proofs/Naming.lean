import ChronicleMeta.Naming
import Mathlib.Data.List.Basic

/-! Full names as paths of simple names. -/

namespace ChronicleMeta.Naming

variable {naming : Naming} {fullName parent name : String}

/-- The full name is made of simple names, none of them empty and none with the separator in it, with
separators between. -/
def IsPath (naming : Naming) (fullName : String) : Prop :=
  ∃ names : List String, names ≠ [] ∧
    (∀ name ∈ names, name ≠ "" ∧ naming.separator ∉ name.toList) ∧
    fullName = (String.singleton naming.separator).intercalate names

theorem cutLast_eq_none_iff {sep : Char} {l : List Char} : cutLast sep l = none ↔ sep ∉ l := by
  induction l with
  | nil => simp [cutLast]
  | cons c cs ih =>
    rw [cutLast, List.mem_cons, not_or]
    cases hcs : cutLast sep cs with
    | some parts =>
      have hmem : ¬sep ∉ cs := fun h => by cases hcs.symm.trans (ih.2 h)
      simp [hmem]
    | none => simp [ih.1 hcs, eq_comm]

/-- The cut is at the last separator, so there is none after it. -/
theorem cutLast_eq_some_iff {sep : Char} {l before after : List Char} :
    cutLast sep l = some (before, after) ↔ l = before ++ sep :: after ∧ sep ∉ after := by
  constructor
  · intro h
    induction l generalizing before with
    | nil => cases h
    | cons c cs ih =>
      rw [cutLast] at h
      split at h
      next before' after' hcs =>
        obtain ⟨rfl, rfl⟩ := Prod.mk.inj (Option.some.inj h)
        obtain ⟨rfl, hafter⟩ := ih hcs
        exact ⟨rfl, hafter⟩
      next hcs =>
        split_ifs at h with hc
        obtain ⟨rfl, rfl⟩ := Prod.mk.inj (Option.some.inj h)
        exact ⟨by rw [hc, List.nil_append], cutLast_eq_none_iff.1 hcs⟩
  · rintro ⟨rfl, hafter⟩
    induction before with
    | nil =>
      rw [List.nil_append, cutLast, cutLast_eq_none_iff.2 hafter]
      exact if_pos rfl
    | cons c before ih => rw [List.cons_append, cutLast, ih]

/-- A full name is put together again from its parts. -/
theorem join_split (naming : Naming) (fullName : String) :
    naming.join (naming.split fullName).1 (naming.split fullName).2 = fullName := by
  unfold split
  split
  next before after hcut =>
    refine String.toList_inj.1 ?_
    simp only [join, String.toList_ofList]
    exact (cutLast_eq_some_iff.1 hcut).1.symm
  next => rfl

/-- A full name with a parent is the one of the parent, the separator and the simple name. -/
theorem eq_of_split_eq_some (h : (naming.split fullName).1 = some parent) :
    fullName = parent ++ String.singleton naming.separator ++ (naming.split fullName).2 := by
  have hjoin := join_split naming fullName
  rw [h] at hjoin
  refine hjoin.symm.trans (String.toList_inj.1 ?_)
  simp [join]

theorem eq_of_split_eq_none (h : (naming.split fullName).1 = none) :
    (naming.split fullName).2 = fullName := by
  have hjoin := join_split naming fullName
  rw [h] at hjoin
  exact hjoin

/-- A parent has a shorter full name. -/
theorem ne_of_split_eq_some (h : (naming.split fullName).1 = some parent) : fullName ≠ parent := by
  intro heq
  have hlength := congrArg String.length (eq_of_split_eq_some h)
  simp only [heq, String.length_append, String.length_singleton] at hlength
  omega

theorem separator_not_mem_split (naming : Naming) (fullName : String) :
    naming.separator ∉ (naming.split fullName).2.toList := by
  unfold split
  split
  next before after hcut =>
    rw [String.toList_ofList]
    exact (cutLast_eq_some_iff.1 hcut).2
  next hcut => exact cutLast_eq_none_iff.1 hcut

/-- A name without the separator is cut off again from what it is put under. -/
theorem split_join (naming : Naming) (path : Option String)
    (h : naming.separator ∉ name.toList) : naming.split (naming.join path name) = (path, name) := by
  cases path with
  | none =>
    have hcut := cutLast_eq_none_iff.2 h
    simp only [split, join, hcut]
  | some parent =>
    have hcut : cutLast naming.separator (parent.toList ++ naming.separator :: name.toList) =
        some (parent.toList, name.toList) := cutLast_eq_some_iff.2 ⟨rfl, h⟩
    simp only [split, join, String.toList_ofList, hcut, String.ofList_toList]

theorem validate_eq_ok_iff :
    naming.validate name = .ok () ↔ name ≠ "" ∧ naming.separator ∉ name.toList := by
  unfold validate
  split_ifs with hempty hsep
  · simp [String.toList_eq_nil_iff.1 hempty]
  · simp [hsep]
  · simp [hsep, mt String.toList_eq_nil_iff.2 hempty]

theorem isPath_of_validate (h : naming.validate name = .ok ()) : naming.IsPath name :=
  ⟨[name], by simp, by simpa using validate_eq_ok_iff.1 h, by simp⟩

theorem IsPath.under (h : naming.IsPath parent) (hname : naming.validate name = .ok ()) :
    naming.IsPath (parent ++ String.singleton naming.separator ++ name) := by
  obtain ⟨names, hnames, hsimple, rfl⟩ := h
  refine ⟨names ++ [name], by simp, ?_, ?_⟩
  · exact List.forall_mem_append.2
      ⟨hsimple, List.forall_mem_singleton.2 (validate_eq_ok_iff.1 hname)⟩
  · rw [String.intercalate_append_of_ne_nil hnames (List.cons_ne_nil _ _),
      String.intercalate_singleton]

end ChronicleMeta.Naming
