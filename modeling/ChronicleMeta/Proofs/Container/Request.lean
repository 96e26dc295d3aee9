import ChronicleMeta.Container.Basic
import ChronicleMeta.Proofs.Container.Draft

/-! Sequences of requests to a container, with the container that each leaves. -/

namespace ChronicleMeta.Container

open Component

variable {T : Type}

/-- A request that may change a container. To lay a level over the container it takes how an empty
component of a number looks and how a definition is merged into a component. -/
inductive Request (T : Type) where
  | add (x : T)
  | delete (n : UInt32)
  | erase (n : UInt32)
  | edit
  | editComponent {α : Type} (n : UInt32) (f : T → Except Error (α × T))
  | layLevel (empty : UInt32 → T) (merge : T → T → Except Error T) (level : Container T)
  | consolidate
  | rollback

variable [Component T]

/-- Whether what changes a component keeps its number. -/
def Request.KeepsNumbers : Request T → Prop
  | .editComponent _ f => ∀ x a y, f x = .ok (a, y) → number y = number x
  | .layLevel _ merge _ => ∀ x d y, merge x d = .ok y → number y = number x
  | _ => True

variable (empty : UInt32 → T) (merge : T → T → Except Error T)

/-- Merges a definition, as `mergeDefinition`, and tells what is left where this fails. -/
def layDefinition (c : Container T) (x : T) : Edited (Container T) Unit :=
  (c.add (empty (number x))).andThen fun _ c =>
    (c.editComponent (number x) fun y => (merge y x).map ((), ·)).map fun _ => ()

/-- Merges definitions one by one, up to the first that fails. -/
def layDefinitions (c : Container T) : List T → Edited (Container T) Unit
  | [] => .ok c ()
  | x :: xs => (c.layDefinition empty merge x).andThen fun () c => c.layDefinitions xs

/-- Lays a level over the container, as `mergeLevel`, and tells what is left where this fails: what
the level removes is gone, and the definitions before the one that fails are merged. -/
def layLevel (c level : Container T) : Edited (Container T) Unit :=
  (c.eraseLevel level).layDefinitions empty merge (level.components.filter (!isErasing ·))

theorem commit_layDefinition (c : Container T) (x : T) :
    (c.layDefinition empty merge x).commit = (mergeDefinition empty merge c x).map ((), ·) := by
  unfold layDefinition mergeDefinition
  rw [Outcome.commit_andThen]
  cases (c.add (empty (number x))).commit with
  | error e => rfl
  | ok added =>
    obtain ⟨_, c₁⟩ := added
    rw [ok_bind, ok_bind, Outcome.commit_map]
    dsimp only
    cases (c₁.editComponent (number x) fun y => (merge y x).map ((), ·)).commit <;> rfl

/-- Where nothing fails, the two ways to lay a level over a container give the same, and they fail
alike. -/
theorem commit_layLevel (c level : Container T) :
    (c.layLevel empty merge level).commit = (mergeLevel empty merge c level).map ((), ·) := by
  unfold layLevel mergeLevel
  generalize c.eraseLevel level = c
  induction level.components.filter (!isErasing ·) generalizing c with
  | nil => rfl
  | cons x l ih =>
    rw [layDefinitions, List.foldlM_cons, Outcome.commit_andThen, commit_layDefinition]
    cases mergeDefinition empty merge c x with
    | error e => rfl
    | ok c₁ => exact ih c₁

def serve (c : Container T) : Request T → Container T
  | .add x => (c.add x).state
  | .delete n => c.delete n
  | .erase n => (c.erase n).state
  | .edit => c.edit
  | .editComponent n f => (c.editComponent n f).state
  | .layLevel empty merge level => (c.layLevel empty merge level).state
  | .consolidate => c.consolidate
  | .rollback => c.rollback

/-- Where a level is laid over the container without failure, this is what the request leaves. -/
theorem serve_layLevel {empty : UInt32 → T} {merge : T → T → Except Error T} {c c' level : Container T}
    (h : mergeLevel empty merge c level = .ok c') : c.serve (.layLevel empty merge level) = c' := by
  have hcommit : (c.layLevel empty merge level).commit = .ok ((), c') := by
    rw [commit_layLevel, h]
    rfl
  exact (Outcome.commit_eq_ok_iff.1 hcommit).2

def run (c : Container T) (rs : List (Request T)) : Container T := rs.foldl serve c

/-- What every request of a sequence keeps, the sequence keeps. -/
theorem run_invariant {P : Container T → Prop} {Q : Request T → Prop}
    (hstep : ∀ c r, P c → Q r → P (c.serve r)) {c : Container T} (h : P c)
    {rs : List (Request T)} (hrs : ∀ r ∈ rs, Q r) : P (c.run rs) := by
  induction rs generalizing c with
  | nil => exact h
  | cons r rs ih =>
    obtain ⟨hr, hrs⟩ := List.forall_mem_cons.1 hrs
    exact ih (hstep c r h hr) hrs

end ChronicleMeta.Container
