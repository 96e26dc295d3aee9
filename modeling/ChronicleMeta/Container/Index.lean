import ChronicleMeta.Component
import ChronicleMeta.SortedMap

/-! Components by number, with an index by name that every operation keeps up to date. -/

namespace ChronicleMeta

open Component

/-- Components by their numbers, and the numbers of the named ones by their names. -/
structure Index (T : Type) where
  byNumber : SortedMap UInt32 T := ∅
  byName : SortedMap String UInt32 := ∅

namespace Index

variable {T : Type}

/-- The components in ascending order of their numbers. -/
def components (ix : Index T) : List T := ix.byNumber.values

/-- The component of the number or the name. -/
def find? (ix : Index T) : DefinitionKey → Option T
  | .number n => ix.byNumber.get? n
  | .name s => ix.byName.get? s |>.bind ix.byNumber.get?

/-- The index with each component replaced by one of the same number and name. -/
def map (f : T → T) (ix : Index T) : Index T :=
  { ix with byNumber := ix.byNumber.mapValues fun _ c => f c }

variable [Component T]

/-- The error that `owner` has the name that is to be given to `number`. -/
def nameTaken (T : Type) [Component T] (name : String) (owner number : UInt32) : Error :=
  .duplicateName (label T) name owner number

/-- Inserts a component, unless its number is taken. -/
def insert (ix : Index T) (c : T) : Except Error (Option (Index T)) :=
  if ix.byNumber.contains (number c) then .ok none
  else match name? c with
    | none => .ok (some { ix with byNumber := ix.byNumber.insert (number c) c })
    | some name => match ix.byName.get? name with
      | some owner => .error (nameTaken T name owner (number c))
      | none => .ok (some
          { byNumber := ix.byNumber.insert (number c) c, byName := ix.byName.insert name (number c) })

/-- Removes the component of the number, if there is one, and its name if it is registered for it. -/
def remove (ix : Index T) (n : UInt32) : Index T :=
  match ix.byNumber.get? n with
  | none => ix
  | some c =>
    { byNumber := ix.byNumber.erase n
      byName := match name? c with
        | some name => if ix.byName.get? name = some n then ix.byName.erase name else ix.byName
        | none => ix.byName }

/-- The names after the component of the number has changed its name from `old` to `new`. The new
name must not belong to another component. -/
def rename (ix : Index T) (n : UInt32) (old new : Option String) :
    Except Error (SortedMap String UInt32) :=
  if new = old then .ok ix.byName
  else
    let kept := match old with
      | some name => ix.byName.erase name
      | none => ix.byName
    match new with
    | none => .ok kept
    | some name => match ix.byName.get? name with
      | some owner =>
        if owner = n then .ok (kept.insert name n) else .error (nameTaken T name owner n)
      | none => .ok (kept.insert name n)

/-- Replaces the component of the number by what `f` makes of it, which may have another name. There
is a result of `f` only if there is such a component. -/
def modify {α : Type} (ix : Index T) (n : UInt32) (f : T → Except Error (α × T)) :
    Except Error (Option (α × Index T)) :=
  match ix.byNumber.get? n with
  | none => .ok none
  | some before => do
    let (a, after) ← f before
    let names ← ix.rename n (name? before) (name? after)
    return some (a, { byNumber := ix.byNumber.insert n after, byName := names })

end Index

end ChronicleMeta
