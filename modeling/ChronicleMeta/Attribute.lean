import ChronicleMeta.Container.Basic
import ChronicleMeta.Property

/-!
Attributes: a property and a default value under a number. A derived schema may instead hold a
removal, which takes away the inherited attribute of the number. An operation that fails leaves
the attribute as it was.
-/

namespace ChronicleMeta

/-- The definition of an attribute of a schema or a series. -/
structure Attribute where
  number : UInt32
  /-- The property, unless it is inherited. -/
  property : Option Property := none
  value : Option Value := none
  erasing : Bool := false
  editable : Bool := true

namespace Attribute

def checkPair (p : Option Property) (v : Option Value) : Except Error Unit :=
  match p, v with
  | some p, some v =>
    if p.valueType.accepts v then .ok ()
    else .error (.incompatibleValue p.name p.valueType.name v.toText)
  | _, _ => .ok ()

/-- The definition of a property with a default value of its type, or none. -/
def ofProperty (number : UInt32) (p : Property) (v : Option Value) : Except Error Attribute := do
  checkPair (some p) v
  return { number, property := some p, value := v }

/-- Refuses a change unless changes are allowed. -/
def ensureEditable (a : Attribute) : Except Error Unit :=
  if a.editable then .ok () else .error (.notEditable s!"attribute #{a.number}")

/-- Sets or clears the property; the value has to fit its type. -/
def setProperty (a : Attribute) (p : Option Property) : Except Error Attribute := do
  a.ensureEditable
  checkPair p a.value
  return { a with property := p, erasing := a.erasing && p.isNone }

/-- Sets or clears the default value; it has to fit the property's type. -/
def setValue (a : Attribute) (v : Option Value) : Except Error Attribute := do
  a.ensureEditable
  checkPair a.property v
  return { a with value := v, erasing := a.erasing && v.isNone }

/-- Sets the default value to one read by the property's type. -/
def parseValue (a : Attribute) (input : String) : Except Error Attribute := do
  match a.property with
  | none => throw (.ofArgument (.noProperty a.number input))
  | some p => a.setValue (some (← p.valueType.parse input))

/-- Makes the attribute a removal, which has neither property nor value, or no removal. -/
def setErasing (a : Attribute) (erasing : Bool) : Except Error Attribute := do
  a.ensureEditable
  return if erasing then { a with property := none, value := none, erasing := true }
    else { a with erasing := false }

/-- The attribute with the property and the value that `other` sets. They are judged together, so
both can change at once. -/
def merge (a other : Attribute) : Except Error Attribute := do
  a.ensureEditable
  let p := other.property.or a.property
  let v := other.value.or a.value
  checkPair p v
  return { a with property := p, value := v, erasing := a.erasing && p.isNone && v.isNone }

/-- Whether nothing is missing: there is a property that accepts the value, or its absence. -/
def isComplete (a : Attribute) : Bool :=
  !a.erasing && a.property.any (·.accepts a.value)

/-- Whether both define the same: whether they remove, and with equal properties and values. -/
def agrees (a b : Attribute) : Bool :=
  a.erasing = b.erasing && bothAgree Property.agrees a.property b.property && a.value = b.value

/-- Whether both have the same removal flag, name of the property and value. Attributes that agree
do. -/
def sameDigest (a b : Attribute) : Bool :=
  a.erasing = b.erasing && a.property.map (·.name) = b.property.map (·.name) && a.value = b.value

end Attribute

instance : Component Attribute where
  label := "attribute"
  erasing n := { number := n, erasing := true }
  number a := a.number
  name? a := a.property.map (·.name)
  isComplete a := .ok a.isComplete
  isErasing a := a.erasing
  isEditable a := a.editable
  setEditable b a := { a with editable := b }
  freeze a := { a with editable := false }

def Attribute.mapProperty {m : Type → Type} [Monad m] (f : Property → m Property) (a : Attribute) :
    m Attribute := do
  match a.property with
  | none => return a
  | some p => return { a with property := some (← f p) }

end ChronicleMeta
