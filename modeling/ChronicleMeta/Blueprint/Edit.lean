import ChronicleMeta.Blueprint.Basic

/-!
Changes of a blueprint's definitions. Each is recorded in the session before it is made, so the
record stays also where the change fails.
-/

namespace ChronicleMeta.Blueprint

def withAttributes (b : Blueprint) (c : Container Attribute) : Blueprint :=
  { b with definitions := { b.definitions with attributes := c } }

def withSeries (b : Blueprint) (c : Container Series) : Blueprint :=
  { b with definitions := { b.definitions with series := c } }

/-- Goes on with the blueprint in which a change is recorded, or fails and changes nothing. -/
def whenRecorded {α : Type} (b : Blueprint) (recorded : Except Error Blueprint)
    (act : Blueprint → Edited Blueprint α) : Edited Blueprint α :=
  match recorded with
  | .error e => .fail b e
  | .ok b => act b

/-- Changes the attributes, as a change of definitions. -/
def onAttributes {α : Type} (b : Blueprint)
    (act : Container Attribute → Edited (Container Attribute) α) : Edited Blueprint α :=
  b.whenRecorded b.recordStructural fun b => (act b.definitions.attributes).inState b.withAttributes

/-- Changes the series, as a change of definitions. -/
def onSeries {α : Type} (b : Blueprint)
    (act : Container Series → Edited (Container Series) α) : Edited Blueprint α :=
  b.whenRecorded b.recordStructural fun b => (act b.definitions.series).inState b.withSeries

def noAttribute (b : Blueprint) (n : UInt32) : Error := .attributeNotFound b.label (.number n)

/-- The error that the series of the number does not exist. -/
def noSeries (b : Blueprint) (n : UInt32) : Error := .seriesNotFound b.label (.number n)

/-- Fails unless the number was free. -/
def requireFree {σ : Type} (container : String) (n : UInt32) (r : Edited σ Bool) : Edited σ Unit :=
  r.andThen fun added s =>
    if added then .ok s () else .fail s (.duplicateNumber container n)

def addAttribute (b : Blueprint) (a : Attribute) : Edited Blueprint Unit :=
  requireFree "attribute" a.number (b.onAttributes (·.add a))

def deleteAttribute (b : Blueprint) (n : UInt32) : Edited Blueprint Bool :=
  b.onAttributes fun c => .ok (c.delete n) (c.contains n)

def eraseAttribute (b : Blueprint) (n : UInt32) : Edited Blueprint Unit :=
  b.onAttributes (·.erase n)

def editAttribute {α : Type} (b : Blueprint) (n : UInt32)
    (f : Attribute → Except Error (α × Attribute)) : Edited Blueprint α :=
  .require (b.noAttribute n) (b.onAttributes (·.editComponent n f))

/-- Sets or clears the default value of an attribute, which every session may do. -/
def setAttributeValue (b : Blueprint) (n : UInt32) (v : Option Value) : Edited Blueprint Unit :=
  b.whenRecorded b.recordValues fun b =>
    .require (b.noAttribute n)
      ((b.definitions.attributes.editComponent n fun a => (a.setValue v).map ((), ·)).inState
        b.withAttributes)

def addSeries (b : Blueprint) (s : Series) : Edited Blueprint Unit :=
  requireFree "series" s.number (b.onSeries (·.add s))

def deleteSeries (b : Blueprint) (n : UInt32) : Edited Blueprint Bool :=
  b.onSeries fun c => .ok (c.delete n) (c.contains n)

def eraseSeries (b : Blueprint) (n : UInt32) : Edited Blueprint Unit :=
  b.onSeries (·.erase n)

def editSeries {α : Type} (b : Blueprint) (n : UInt32) (f : Series → Except Error (α × Series)) :
    Edited Blueprint α :=
  .require (b.noSeries n) (b.onSeries (·.editComponent n f))

def addSeriesAttribute (b : Blueprint) (series : UInt32) (a : Attribute) : Edited Blueprint Unit :=
  requireFree s!"series #{series} attribute" a.number
    (b.editSeries series fun s => (s.addAttribute a).commit)

def deleteSeriesAttribute (b : Blueprint) (series n : UInt32) : Edited Blueprint Bool :=
  b.editSeries series fun s => (s.deleteAttribute n).commit

def eraseSeriesAttribute (b : Blueprint) (series n : UInt32) : Edited Blueprint Unit :=
  b.editSeries series fun s => (s.eraseAttribute n).commit

/-- Sets or clears the default value of an attribute of a series, which every session may do. -/
def setSeriesAttributeValue (b : Blueprint) (series n : UInt32) (v : Option Value) :
    Edited Blueprint Unit :=
  b.whenRecorded b.recordValues fun b =>
    let edited : Edited Blueprint (Option (Option Unit)) :=
      (b.definitions.series.editComponent series fun s =>
        (s.editAttribute n fun a => (a.setValue v).map ((), ·)).commit).inState b.withSeries
    .require (.attributeNotFound s!"{b.label}, series #{series}" (.number n))
      (.require (b.noSeries series) edited)

end ChronicleMeta.Blueprint
