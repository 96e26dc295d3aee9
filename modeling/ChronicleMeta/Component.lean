import ChronicleMeta.Error

/-!
Components: numbered and possibly named definitions, the members of containers. Items are components
with nothing but what containers ask for.
-/

namespace ChronicleMeta

/-- Types whose values can be held in a container. -/
class Component (T : Type) where
  label : String
  /-- The component that stands for the removal of the one with the number. -/
  erasing : UInt32 → T
  /-- The number, unique in a container. -/
  number : T → UInt32
  /-- The name, unique among the named components of a container. -/
  name? : T → Option String
  isComplete : T → Except Fault Bool
  isErasing : T → Bool
  isEditable : T → Bool
  setEditable : Bool → T → T
  /-- The component with its changes made permanent and no more allowed. -/
  freeze : T → T

/-- Components that keep their number and name while they are made editable and frozen, and have no
name while they stand for a removal. -/
class LawfulComponent (T : Type) [Component T] : Prop where
  number_erasing (n : UInt32) : Component.number (Component.erasing n : T) = n
  name?_erasing (n : UInt32) : Component.name? (Component.erasing n : T) = none
  number_setEditable (b : Bool) (c : T) :
    Component.number (Component.setEditable b c) = Component.number c
  name?_setEditable (b : Bool) (c : T) :
    Component.name? (Component.setEditable b c) = Component.name? c
  number_freeze (c : T) : Component.number (Component.freeze c) = Component.number c
  name?_freeze (c : T) : Component.name? (Component.freeze c) = Component.name? c

/-- A component whose parts are what a container asks for, each of them free. -/
structure Item where
  number : UInt32
  name : Option String := none
  complete : Bool := false
  erasing : Bool := false
  editable : Bool := true
deriving DecidableEq, Repr

instance : Component Item where
  label := "item"
  erasing n := { number := n, erasing := true }
  number x := x.number
  name? x := x.name
  isComplete x := .ok x.complete
  isErasing x := x.erasing
  isEditable x := x.editable
  setEditable b x := { x with editable := b }
  freeze x := { x with editable := false }

instance : LawfulComponent Item where
  number_erasing _ := rfl
  name?_erasing _ := rfl
  number_setEditable _ _ := rfl
  name?_setEditable _ _ := rfl
  number_freeze _ := rfl
  name?_freeze _ := rfl

end ChronicleMeta
