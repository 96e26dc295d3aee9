import ChronicleMeta.Error

/-! Results of operations that change a state and may fail half-way. -/

namespace ChronicleMeta

/-- The result of an operation on a state, and the state that the operation leaves, also where it
fails. -/
structure Outcome (ε σ α : Type) where
  /-- What the operation gives, or why it failed. -/
  result : Except ε α
  /-- The state after it. -/
  state : σ

namespace Outcome

variable {ε ε' σ τ α β : Type}

def ok (s : σ) (a : α) : Outcome ε σ α := ⟨.ok a, s⟩

def fail (s : σ) (e : ε) : Outcome ε σ α := ⟨.error e, s⟩

def ofExcept (s : σ) : Except ε (α × σ) → Outcome ε σ α
  | .ok (a, s') => ok s' a
  | .error e => fail s e

def map (f : α → β) (r : Outcome ε σ α) : Outcome ε σ β := ⟨r.result.map f, r.state⟩

def mapError (f : ε → ε') (r : Outcome ε σ α) : Outcome ε' σ α := ⟨r.result.mapError f, r.state⟩

def inState (f : σ → τ) (r : Outcome ε σ α) : Outcome ε τ α := ⟨r.result, f r.state⟩

def andThen (r : Outcome ε σ α) (f : α → σ → Outcome ε σ β) : Outcome ε σ β :=
  match r.result with
  | .ok a => f a r.state
  | .error e => fail r.state e

/-- What a success gives and the state it leaves; a failure leaves none. -/
def commit (r : Outcome ε σ α) : Except ε (α × σ) := r.result.map (·, r.state)

/-- The outcome in which an absent result is the error. -/
def require (e : ε) (r : Outcome ε σ (Option α)) : Outcome ε σ α :=
  ⟨r.result.bind fun
    | some a => .ok a
    | none => .error e, r.state⟩

end Outcome

abbrev Edited (σ α : Type) : Type := Outcome Error σ α

end ChronicleMeta
