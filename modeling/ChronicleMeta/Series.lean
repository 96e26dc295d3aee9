import ChronicleMeta.Attribute
import ChronicleMeta.Builtin

/-!
Series: streams of values over time, as defined by a schema. The name, the kind of values and the
time domain of a series are attributes with reserved numbers, kept next to custom ones, so that all
of them are inherited by one rule. Operations on a series that fail may leave its edit buffer open,
and nothing else changed.
-/

namespace ChronicleMeta

structure Series where
  number : UInt32
  /-- The description, unless it is inherited. -/
  description : Option String := none
  attributes : Container Attribute := {}
  erasing : Bool := false
  editable : Bool := true

namespace Series

/-- Refuses a change unless changes are allowed. -/
def ensureEditable (s : Series) : Except Error Unit :=
  if s.editable then .ok () else .error (.notEditable s!"series #{s.number}")

/-- The text held by a reserved attribute. -/
def structural? (s : Series) (n : UInt32) : Option String :=
  s.attributes.get? n |>.bind (·.value) |>.bind (·.text?)

def name? (s : Series) : Option String := s.structural? Builtin.seriesName

def valueKind? (s : Series) : Option ValueKind :=
  (s.structural? Builtin.seriesKind).bind ValueKind.ofName?

def timeDomain? (s : Series) : Option String := s.structural? Builtin.seriesTimeDomain

def label (s : Series) : String :=
  match s.name? with
  | some name => s!"series {name}"
  | none => s!"series #{s.number}"

/-- The attributes that are not reserved. -/
def customAttributes (s : Series) : List Attribute :=
  s.attributes.components.filter (Builtin.firstCustom ≤ ·.number)

/-- Goes on with a series that may be changed; otherwise fails and changes nothing. -/
def whenEditable {α : Type} (s : Series) (act : Edited Series α) : Edited Series α :=
  match s.ensureEditable with
  | .error e => .fail s e
  | .ok () => act

def withAttributes (s : Series) (attributes : Container Attribute) : Series := { s with attributes }

/-- The series, which is no removal any more. -/
def restored (s : Series) : Series := { s with erasing := false }

/-- The container with the value of a reserved attribute set, which is defined if it was not. -/
def setReserved (c : Container Attribute) (n : UInt32) (v : Value) :
    Edited (Container Attribute) Unit :=
  if c.contains n then
    (c.editComponent n fun a => (a.setValue (some v)).map ((), ·)).map fun _ => ()
  else match Builtin.ofAttribute? n with
    | none => .fail c (.internal s!"no built-in series attribute #{n}")
    | some p => match Attribute.ofProperty n p (some v) with
      | .error e => .fail c e
      | .ok a => (c.add a).map fun _ => ()

def setStructural (s : Series) (n : UInt32) (text : String) : Edited Series Unit :=
  s.whenEditable <|
    ((setReserved s.attributes n (.text text)).inState s.withAttributes).andThen fun () s =>
      .ok s.restored ()

def setName (s : Series) (name : String) : Edited Series Unit :=
  s.setStructural Builtin.seriesName name

def setValueKind (s : Series) (kind : ValueKind) : Edited Series Unit :=
  s.setStructural Builtin.seriesKind kind.name

def setTimeDomain (s : Series) (domain : String) : Edited Series Unit :=
  s.setStructural Builtin.seriesTimeDomain domain

/-- Sets or clears the description. -/
def setDescription (s : Series) (description : Option String) : Edited Series Unit :=
  s.whenEditable <|
    .ok { s with description, erasing := s.erasing && description.isNone } ()

def ofStructure (number : UInt32) (name : String) (kind : ValueKind) (domain : String) :
    Except Error Series := do
  let ((), s) ← (setName { number } name).commit
  let ((), s) ← (s.setValueKind kind).commit
  let ((), s) ← (s.setTimeDomain domain).commit
  return s

def checkCustom (s : Series) (n : UInt32) : Except Error Unit := do
  s.ensureEditable
  if n < Builtin.firstCustom then
    throw (.ofArgument (.reservedNumber s.number n Builtin.firstCustom))

/-- Goes on if changes are allowed and the number is not reserved. -/
def whenCustom {α : Type} (s : Series) (n : UInt32) (act : Edited Series α) : Edited Series α :=
  match s.checkCustom n with
  | .error e => .fail s e
  | .ok () => act

def addAttribute (s : Series) (a : Attribute) : Edited Series Bool :=
  s.whenCustom a.number <|
    ((s.attributes.add a).inState s.withAttributes).andThen fun added s =>
      .ok (if added then s.restored else s) added

def deleteAttribute (s : Series) (n : UInt32) : Edited Series Bool :=
  s.whenCustom n <| .ok (s.withAttributes (s.attributes.delete n)) (s.attributes.contains n)

def eraseAttribute (s : Series) (n : UInt32) : Edited Series Unit :=
  s.whenCustom n <| (s.attributes.erase n).inState s.withAttributes

/-- Changes an attribute, reserved or custom, by `f`, if there is one of the number. -/
def editAttribute {α : Type} (s : Series) (n : UInt32) (f : Attribute → Except Error (α × Attribute)) :
    Edited Series (Option α) :=
  s.whenEditable <| (s.attributes.editComponent n f).inState s.withAttributes

/-- Makes the series a removal, which has neither description nor attributes, or no removal. -/
def setErasing (s : Series) (erasing : Bool) : Edited Series Unit :=
  s.whenEditable <|
    .ok (if erasing then { s with description := none, attributes := {}, erasing := true }
      else s.restored) ()

def merge (s other : Series) : Except Error Series := do
  s.ensureEditable
  let attributes ← Container.mergeLevel (fun n => { number := n }) Attribute.merge
    s.attributes other.attributes
  return { s with attributes, description := other.description.or s.description, erasing := false }

def mapProperties {m : Type → Type} [Monad m] [MonadLiftT (Except Error) m]
    (f : Property → m Property) (s : Series) : m Series := do
  return { s with attributes := ← s.attributes.rebuild (Attribute.mapProperty f) }

/-- Whether nothing is missing: the series has its reserved attributes, and all are complete. -/
def isComplete (s : Series) : Except Fault Bool :=
  if !s.erasing && s.name?.isSome && s.valueKind?.isSome && s.timeDomain?.isSome then
    s.attributes.isComplete
  else .ok false

/-- Whether both define the same: whether they remove, the description and the attributes. -/
def agrees (a b : Series) : Bool :=
  a.erasing = b.erasing && a.description = b.description
    && Container.agrees Attribute.agrees a.attributes b.attributes

end Series

instance : Component Series where
  label := "series"
  erasing n := { number := n, erasing := true }
  number s := s.number
  name? s := s.name?
  isComplete s := s.isComplete
  isErasing s := s.erasing
  isEditable s := s.editable
  setEditable b s := { s with editable := b }
  freeze s := { s with attributes := s.attributes.consolidate, editable := false }

end ChronicleMeta
