import ChronicleMeta.Series

/-! The attributes and the series that a schema defines. -/

namespace ChronicleMeta

structure Definitions where
  attributes : Container Attribute := {}
  series : Container Series := {}

inductive Incompleteness where
  | noSeries
  | incompleteAttribute (number : UInt32)
  | incompleteSeries (number : UInt32)
deriving DecidableEq, Repr

/-- What is missing, in words. -/
def Incompleteness.message : Incompleteness → String
  | .noSeries => "no series definition"
  | .incompleteAttribute number => s!"attribute #{number} is incomplete"
  | .incompleteSeries number => s!"series #{number} is incomplete"

/-- The attribute of the number or the name. That there is none is an error only if it must exist. -/
def findAttribute (owner : String) (c : Container Attribute) (key : DefinitionKey)
    (mustExist : Bool) : Except Error (Option Attribute) :=
  match c.find? key with
  | some a => .ok (some a)
  | none => if mustExist then .error (.attributeNotFound owner key) else .ok none

/-- The series of the number or the name. That there is none is an error only if it must exist. -/
def findSeries (owner : String) (c : Container Series) (key : DefinitionKey) (mustExist : Bool) :
    Except Error (Option Series) :=
  match c.find? key with
  | some s => .ok (some s)
  | none => if mustExist then .error (.seriesNotFound owner key) else .ok none

namespace Definitions

/-- The properties referred to, those of attributes of chronicles first, with repetitions. -/
def properties (d : Definitions) : List Property :=
  (d.attributes.components ++ d.series.components.flatMap (·.attributes.components)).filterMap
    (·.property)

def merge (d level : Definitions) : Except Error Definitions := do
  let attributes ← Container.mergeLevel (fun n => { number := n }) Attribute.merge
    d.attributes level.attributes
  let series ← Container.mergeLevel (fun n => { number := n }) Series.merge d.series level.series
  return { attributes, series }

def consolidate (d : Definitions) : Definitions where
  attributes := d.attributes.consolidate
  series := d.series.consolidate

/-- The definitions with each property changed. -/
def mapProperties {m : Type → Type} [Monad m] [MonadLiftT (Except Error) m]
    (f : Property → m Property) (d : Definitions) : m Definitions := do
  let attributes ← d.attributes.rebuild (Attribute.mapProperty f)
  let series ← d.series.rebuild (Series.mapProperties f)
  return { attributes, series }

/-- Whether nothing is missing: there is a series, and all definitions are complete. -/
def isComplete (d : Definitions) : Except Fault Bool := do
  if d.series.isEmpty then return false
  if ← d.attributes.isComplete then d.series.isComplete else return false

/-- The first thing that is missing. -/
def incompleteness? (d : Definitions) : Except Fault (Option Incompleteness) := do
  if d.series.isEmpty then return some .noSeries
  if let some a ← d.attributes.firstIncomplete? then return some (.incompleteAttribute a.number)
  if let some s ← d.series.firstIncomplete? then return some (.incompleteSeries s.number)
  return none

/-- Whether both define the same attributes and series. -/
def agrees (a b : Definitions) : Bool :=
  Container.agrees Attribute.agrees a.attributes b.attributes
    && Container.agrees Series.agrees a.series b.series

end Definitions

end ChronicleMeta
