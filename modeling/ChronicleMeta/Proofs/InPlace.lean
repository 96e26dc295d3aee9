import ChronicleMeta.Proofs.Outcome
import ChronicleMeta.Schema

/-!
Steps that change a state one by one and leave it half-way changed where they fail. The changes of the
properties of a schema are such steps as well as ones whose failure leaves no state.
-/

namespace ChronicleMeta

/-- Steps that report errors and keep what they have changed before. -/
abbrev InPlace (σ α : Type) : Type := ExceptT Error (StateM σ) α

variable {σ α β T : Type}

namespace InPlace

/-- What the steps give, and the state they leave. -/
def outcome (x : InPlace σ α) (s : σ) : Edited σ α := ⟨(x.run.run s).1, (x.run.run s).2⟩

theorem outcome_bind (x : InPlace σ α) (f : α → InPlace σ β) (s : σ) :
    (x >>= f).outcome s = (x.outcome s).andThen fun a s => (f a).outcome s := by
  unfold outcome Outcome.andThen
  rw [ExceptT.run_bind, StateT.run_bind]
  rcases x.run.run s with ⟨result, s'⟩
  cases result <;> rfl

/-- The steps do what `y` does, and keep an invariant also where they fail. -/
structure Follows (P : σ → Prop) (x : InPlace σ α) (y : StateT σ (Except Error) α) : Prop where
  commit_eq : ∀ s, (x.outcome s).commit = y.run s
  keeps : ∀ s, P s → P (x.outcome s).state

variable {P : σ → Prop}

theorem follows_pure (a : α) : Follows P (pure a) (pure a) where
  commit_eq _ := rfl
  keeps _ h := h

theorem follows_lift (x : Except Error α) : Follows P (liftM x) (liftM x) where
  commit_eq s := by cases x <;> rfl
  keeps _ h := h

theorem Follows.bind {x : InPlace σ α} {y : StateT σ (Except Error) α} {f : α → InPlace σ β}
    {g : α → StateT σ (Except Error) β} (hx : Follows P x y) (hf : ∀ a, Follows P (f a) (g a)) :
    Follows P (x >>= f) (y >>= g) where
  commit_eq s := by
    rw [outcome_bind, Outcome.commit_andThen, hx.commit_eq, StateT.run_bind]
    exact congrArg _ (funext fun p => (hf p.1).commit_eq p.2)
  keeps s h := by
    have hleft := hx.keeps s h
    rw [outcome_bind]
    unfold Outcome.andThen
    cases (x.outcome s).result with
    | ok a => exact (hf a).keeps _ hleft
    | error e => exact hleft

theorem follows_foldlM {f : β → α → InPlace σ β} {g : β → α → StateT σ (Except Error) β}
    (hf : ∀ b a, Follows P (f b a) (g b a)) (l : List α) (b : β) :
    Follows P (l.foldlM f b) (l.foldlM g b) := by
  induction l generalizing b with
  | nil => exact follows_pure b
  | cons a l ih =>
    rw [List.foldlM_cons, List.foldlM_cons]
    exact (hf b a).bind ih

/-- The steps come to one change of the state, or to none where they fail. -/
def AtOnce (x : InPlace σ Unit) (s : σ) (y : Except Error σ) : Prop :=
  x.outcome s = .ofExcept s (y.map ((), ·))

variable {x : InPlace σ Unit} {s s' : σ} {y : Except Error σ}

theorem atOnce_throw (e : Error) (s : σ) : AtOnce (throw e) s (.error e) := rfl

theorem atOnce_modify (f : σ → σ) (s : σ) : AtOnce (modify f) s (.ok (f s)) := rfl

theorem AtOnce.get {f : σ → InPlace σ Unit} (h : AtOnce (f s) s y) : AtOnce (get >>= f) s y := h

/-- A check may come before any steps. -/
theorem AtOnce.check {z : Except Error α} {f : α → InPlace σ Unit} {g : α → Except Error σ}
    (h : ∀ a, AtOnce (f a) s (g a)) : AtOnce (liftM z >>= f) s (z >>= g) := by
  cases z with
  | error e => rfl
  | ok a => exact h a

/-- A change may come before steps that succeed. -/
theorem AtOnce.modify {f : σ → σ} (h : AtOnce x (f s) (.ok s')) : AtOnce (do modify f; x) s (.ok s') := h

theorem AtOnce.state_of_error (h : AtOnce x s y) {e : Error} (he : (x.outcome s).result = .error e) :
    (x.outcome s).state = s := by
  unfold AtOnce at h
  rw [h] at he ⊢
  cases y with
  | error e => rfl
  | ok s' => cases he

theorem follows_rebuild [Component T] {f : T → InPlace σ T} {g : T → StateT σ (Except Error) T}
    (hf : ∀ x, Follows P (f x) (g x)) (c : Container T) :
    Follows P (c.rebuild f) (c.rebuild g) := by
  refine (follows_foldlM (fun r x => ?_) _ _).bind fun _ => follows_pure _
  exact (hf x).bind fun y => (follows_lift (r.add y).commit).bind fun _ => follows_pure _

variable {f : Property → InPlace σ Property} {g : PropertyMap σ}

theorem follows_mapProperty (hf : ∀ p, Follows P (f p) (g p)) (a : Attribute) :
    Follows P (a.mapProperty f) (a.mapProperty g) := by
  unfold Attribute.mapProperty
  cases a.property with
  | none => exact follows_pure a
  | some p => exact (hf p).bind fun _ => follows_pure _

theorem follows_mapProperties (hf : ∀ p, Follows P (f p) (g p)) (s : Schema) :
    Follows P (s.mapProperties f) (s.mapProperties g) := by
  have hattributes : ∀ c : Container Attribute,
      Follows P (c.rebuild (Attribute.mapProperty f)) (c.rebuild (Attribute.mapProperty g)) :=
    follows_rebuild (follows_mapProperty hf)
  have hseries : ∀ x : Series, Follows P (x.mapProperties f) (x.mapProperties g) := fun x =>
    (hattributes x.attributes).bind fun _ => follows_pure _
  have hdefinitions : Follows P (s.definitions.mapProperties f) (s.definitions.mapProperties g) :=
    (hattributes _).bind fun _ => (follows_rebuild hseries _).bind fun _ => follows_pure _
  exact hdefinitions.bind fun _ => follows_pure _

end InPlace

end ChronicleMeta
