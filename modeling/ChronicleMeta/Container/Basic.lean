import ChronicleMeta.Container.Index
import ChronicleMeta.Outcome

/-!
Containers of components. A container is changed in a copy of its committed state, the edit buffer,
which the first change opens. Consolidating makes the buffer the committed state, and rolling back
drops it. Levels of definitions are laid over a container, and a container is built anew from the
components of another.
-/

namespace ChronicleMeta

open Component

/-- Components by number and by unique name, with an edit buffer while they are being changed. -/
structure Container (T : Type) where
  /-- The state before the changes. -/
  committed : Index T := {}
  /-- The changed state, while there is one. -/
  buffer : Option (Index T) := none

namespace Container

variable {T : Type}

/-- The current state: the edit buffer if there is one, the committed state otherwise. -/
def view (c : Container T) : Index T := c.buffer.getD c.committed

/-- The components of the current state in ascending order of their numbers. -/
def components (c : Container T) : List T := c.view.components

/-- The numbers of the components, in ascending order. -/
def numbers (c : Container T) : List UInt32 := c.view.byNumber.keys

def size (c : Container T) : Nat := c.view.byNumber.size

def isEmpty (c : Container T) : Bool := c.view.byNumber.isEmpty

def contains (c : Container T) (n : UInt32) : Bool := c.view.byNumber.contains n

def get? (c : Container T) (n : UInt32) : Option T := c.view.byNumber.get? n

/-- The component of the number or the name. -/
def find? (c : Container T) (key : DefinitionKey) : Option T := c.view.find? key

def isEditing (c : Container T) : Bool := c.buffer.isSome

def agrees (agree : T → T → Bool) (a b : Container T) : Bool :=
  a.numbers = b.numbers && (a.components.zip b.components).all fun (x, y) => agree x y

/-- The container without an edit buffer. -/
def rollback (c : Container T) : Container T := { c with buffer := none }

variable [Component T]

/-- The edit buffer: the one there is, or an editable copy of the committed state. -/
def draft (c : Container T) : Index T :=
  c.buffer.getD (c.committed.map (setEditable true))

def edit (c : Container T) : Container T := { c with buffer := some c.draft }

def withDraft (c : Container T) (ix : Index T) : Container T := { c with buffer := some ix }

/-- Adds a component and tells whether its number was free. A name that is taken is an error. -/
def add (c : Container T) (x : T) : Edited (Container T) Bool :=
  match c.draft.insert (setEditable true x) with
  | .error e => .fail c.edit e
  | .ok none => .ok c.edit false
  | .ok (some ix) => .ok (c.withDraft ix) true

/-- Changes the component of the number by `f`. There is no result if there is no such component;
if `f` fails or gives it the name of another component, it stays as it was. -/
def editComponent {α : Type} (c : Container T) (n : UInt32) (f : T → Except Error (α × T)) :
    Edited (Container T) (Option α) :=
  match c.draft.modify n f with
  | .error e => .fail c.edit e
  | .ok none => .ok c.edit none
  | .ok (some (a, ix)) => .ok (c.withDraft ix) (some a)

/-- The container without the component of the number; it is not touched if there is none. -/
def delete (c : Container T) (n : UInt32) : Container T :=
  if c.contains n then c.withDraft (c.draft.remove n) else c

/-- Puts a removal in the place of the component of the number. -/
def erase (c : Container T) (n : UInt32) : Edited (Container T) Unit :=
  let ix := c.draft.remove n
  match ix.insert (erasing n) with
  | .error e => .fail (c.withDraft ix) e
  | .ok none => .ok (c.withDraft ix) ()
  | .ok (some ix) => .ok (c.withDraft ix) ()

/-- Makes the edit buffer, if there is one, the committed state, with every component frozen. -/
def consolidate (c : Container T) : Container T :=
  match c.buffer with
  | none => c
  | some ix => { committed := ix.map freeze }

/-- Whether all the components are complete; those after the first that is not are not looked at. -/
def allComplete : List T → Except Fault Bool
  | [] => .ok true
  | x :: xs => do if ← isComplete x then allComplete xs else return false

/-- Whether every component is complete. Complete components all have names of their own, so there
are then as many names as components. -/
def isComplete (c : Container T) : Except Fault Bool := do
  let complete ← allComplete c.components
  if complete && c.view.byName.size ≠ c.view.byNumber.size then throw (.indexOutOfStep (label T))
  return complete

/-- The first component that is not complete. -/
def firstIncomplete? (c : Container T) : Except Fault (Option T) :=
  go c.components
where
  go : List T → Except Fault (Option T)
    | [] => .ok none
    | x :: xs => do if ← Component.isComplete x then go xs else return some x

/-- The container without the components that the level removes. -/
def eraseLevel (c level : Container T) : Container T :=
  (level.components.filter isErasing).foldl (fun c x => c.delete (number x)) c

/-- The container with the definition merged into the component of its number, or into an empty one
where there is none. -/
def mergeDefinition (empty : UInt32 → T) (merge : T → T → Except Error T) (c : Container T) (x : T) :
    Except Error (Container T) := do
  let (_, c) ← (c.add (empty (number x))).commit
  let (_, c) ← (c.editComponent (number x) fun y => (merge y x).map ((), ·)).commit
  return c

/-- Lays a level over the container. What the level removes goes first, so that another definition
of the level can take a name that becomes free; then its definitions are merged one by one. -/
def mergeLevel (empty : UInt32 → T) (merge : T → T → Except Error T) (c level : Container T) :
    Except Error (Container T) :=
  (level.components.filter (!isErasing ·)).foldlM (mergeDefinition empty merge)
    (c.eraseLevel level)

/-- A consolidated container of the components of `c`, each changed by `f`. Two that come to have
the same name are an error. -/
def rebuild {m : Type → Type} [Monad m] [MonadLiftT (Except Error) m] (f : T → m T)
    (c : Container T) : m (Container T) := do
  let rebuilt ← c.components.foldlM
    (fun (r : Container T) x => do return (← (r.add (← f x)).commit).2) {}
  return rebuilt.consolidate

end Container

end ChronicleMeta
