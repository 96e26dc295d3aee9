import Mathlib.Data.List.Induction
import Mathlib.Tactic.TypeStar

/-! What is true all along a sequence of requests. -/

namespace ChronicleMeta

variable {σ : Type} {ρ : Type*} {serve : σ → ρ → σ}

/-- A property of the state at first is one of the states after all initial requests exactly if no
request is answered in a way that spoils it. -/
theorem forall_foldl_iff (P : σ → Prop) (Spoils : σ → ρ → Prop) {s : σ} (h : P s)
    (hstep : ∀ (rs : List ρ) (r : ρ), P (rs.foldl serve s) →
      (P (serve (rs.foldl serve s) r) ↔ ¬Spoils (rs.foldl serve s) r)) (rs : List ρ) :
    (∀ rs', rs' <+: rs → P (rs'.foldl serve s)) ↔
      ∀ rs' r, rs' ++ [r] <+: rs → ¬Spoils (rs'.foldl serve s) r := by
  constructor
  · intro hall rs' r hrs'
    have hbefore := hall rs' ((List.prefix_append rs' [r]).trans hrs')
    have hafter := hall (rs' ++ [r]) hrs'
    rw [List.foldl_append] at hafter
    exact (hstep rs' r hbefore).1 hafter
  · intro hnone rs' hrs'
    induction rs' using List.reverseRecOn with
    | nil => exact h
    | append_singleton rs' r ih =>
      have hbefore := ih ((List.prefix_append rs' [r]).trans hrs')
      rw [List.foldl_append]
      exact (hstep rs' r hbefore).2 (hnone rs' r hrs')

/-- The initial requests with one more, by the number of those before it. -/
theorem forall_concat_prefix_iff {C : List ρ → ρ → Prop} {rs : List ρ} :
    (∀ rs' r, rs' ++ [r] <+: rs → C rs' r) ↔ ∀ k (h : k < rs.length), C (rs.take k) rs[k] := by
  constructor
  · intro hall k hk
    refine hall _ _ ?_
    rw [List.take_append_getElem hk]
    exact List.take_prefix _ rs
  · rintro hall rs' r ⟨more, rfl⟩
    simpa using hall rs'.length (by simp)

end ChronicleMeta
