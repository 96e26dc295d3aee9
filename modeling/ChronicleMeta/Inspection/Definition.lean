import ChronicleMeta.Component
import ChronicleMeta.Definitions
import ChronicleMeta.Inspection.Error

/-! What definitions and their containers look like from outside, as data. -/

namespace ChronicleMeta

open Component

def Item.inspect (x : Item) : Json :=
  .object [
    ("number", .ofUInt32 x.number),
    ("name", .ofText? x.name),
    ("complete", .bool x.complete),
    ("erasing", .bool x.erasing),
    ("editable", .bool x.editable)]

def Attribute.inspect (a : Attribute) : Json :=
  let property (p : Property) : Json :=
    .array [.string p.name, .string p.surrogate.text, .bool p.indexed, .string p.valueType.name]
  .object [
    ("number", .ofUInt32 a.number),
    ("name", .ofText? (name? a)),
    ("property", .ofOption property a.property),
    ("value", .ofOption Value.inspect a.value),
    ("erasing", .bool a.erasing),
    ("editable", .bool a.editable),
    ("complete", .bool a.isComplete)]

/-- The components in the order of their numbers, and for each the number of the one that is found
by its name. -/
def Container.inspect {T : Type} [Component T] (view : T → Except Fault Json) (c : Container T) :
    Except Fault Json := do
  let first ← c.firstIncomplete?
  let numberOf (x : T) : Json := .ofUInt32 (number x)
  let namesake (x : T) : Json :=
    .ofOption numberOf ((name? x).bind fun name => c.find? (.name name))
  return .object [
    ("editing", .bool c.isEditing),
    ("len", .ofNat c.size),
    ("items", .array (← c.components.mapM view)),
    ("index", .array (c.components.map namesake)),
    ("first_incomplete", .ofOption numberOf first)]

def Container.inspectAttributes (c : Container Attribute) : Except Fault Json :=
  c.inspect fun a => .ok a.inspect

def Series.inspect (s : Series) : Except Fault Json := do
  return .object [
    ("number", .ofUInt32 s.number),
    ("label", .string s.label),
    ("name", .ofText? s.name?),
    ("kind", .ofText? (s.valueKind?.map (·.name))),
    ("time_domain", .ofText? s.timeDomain?),
    ("description", .ofText? s.description),
    ("erasing", .bool s.erasing),
    ("editable", .bool s.editable),
    ("complete", .bool (← s.isComplete)),
    ("custom", .array (s.customAttributes.map fun a => .ofUInt32 a.number)),
    ("attributes", ← s.attributes.inspectAttributes)]

def Container.inspectSeries (c : Container Series) : Except Fault Json := c.inspect Series.inspect

end ChronicleMeta
