import ChronicleMeta.Property

/-!
Built-in value types and properties. Every series has a name, a kind of values and a time domain;
these are attributes with reserved numbers that refer to the properties defined here.
-/

namespace ChronicleMeta.Builtin

def seriesName : UInt32 := 1

def seriesKind : UInt32 := 2

def seriesTimeDomain : UInt32 := 3

/-- The least number of a series attribute that is not reserved. -/
def firstCustom : UInt32 := 4

def timeDomains : List String :=
  ["year", "semester", "quarter", "month", "week", "workweek", "day", "hour", "minute", "second"]

def surrogate (kind : ObjectKind) (id : UInt64) : Surrogate := .committed .builtin kind id

def textType : ValueType := { surrogate := surrogate .valueType 1, name := "text", kind := .text }

def kindType : ValueType :=
  .ofTexts (surrogate .valueType 2) "series_kind" (ValueKind.all.map (·.name))

def timeDomainType : ValueType :=
  .ofTexts (surrogate .valueType 3) "time_domain" timeDomains

def valueTypes : List ValueType := [textType, kindType, timeDomainType]

def nameProperty : Property :=
  { surrogate := surrogate .property 1, name := "series.name", valueType := textType, indexed := true }

def kindProperty : Property :=
  { surrogate := surrogate .property 2, name := "series.type", valueType := kindType }

def timeDomainProperty : Property :=
  { surrogate := surrogate .property 3, name := "series.time_domain", valueType := timeDomainType }

def properties : List Property := [nameProperty, kindProperty, timeDomainProperty]

def valueType? (name : String) : Option ValueType := valueTypes.find? (·.name = name)

def property? (name : String) : Option Property := properties.find? (·.name = name)

def ofAttribute? (n : UInt32) : Option Property :=
  if n = seriesName then some nameProperty
  else if n = seriesKind then some kindProperty
  else if n = seriesTimeDomain then some timeDomainProperty
  else none

end ChronicleMeta.Builtin
