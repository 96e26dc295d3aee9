import ChronicleMeta.Catalog.Basic

/-!
Catalogs read from data. A field may be given once; one that is not known does not matter. Only a
field that may be absent may hold nothing.
-/

namespace ChronicleMeta

open Json

def listOfJson? {α : Type} (read : Json → Option α) (j : Json) : Option (List α) :=
  j.array?.bind (·.mapM read)

def numberOfJson? (j : Json) : Option UInt32 := (j.natural? UInt32.size).map UInt32.ofNat

def textField? (fields : List (String × Json)) (name : String) : Option (Option String) :=
  defaulted? fields name none (optional? Json.string?)

def flagField? (fields : List (String × Json)) (name : String) : Option Bool :=
  defaulted? fields name false Json.bool?

def listField? {α : Type} (fields : List (String × Json)) (name : String) (read : Json → Option α) :
    Option (List α) :=
  defaulted? fields name [] (listOfJson? read)

def ValueTypeEntry.ofJson? (j : Json) : Option ValueTypeEntry := do
  let fields ← j.record? ["name", "kind", "nullable", "values"]
  return {
    name := ← required? fields "name" Json.string?
    kind := ← required? fields "kind" Json.string?
    nullable := ← flagField? fields "nullable"
    values := ← listField? fields "values" Json.string? }

def PropertyEntry.ofJson? (j : Json) : Option PropertyEntry := do
  let fields ← j.record? ["name", "value_type", "indexed"]
  return {
    name := ← required? fields "name" Json.string?
    valueType := ← required? fields "value_type" Json.string?
    indexed := ← flagField? fields "indexed" }

def AttributeEntry.ofJson? (j : Json) : Option AttributeEntry := do
  let fields ← j.record? ["number", "property", "value", "erasing"]
  return {
    number := ← required? fields "number" numberOfJson?
    property := ← textField? fields "property"
    value := ← textField? fields "value"
    erasing := ← flagField? fields "erasing" }

def SeriesEntry.ofJson? (j : Json) : Option SeriesEntry := do
  let fields ← j.record?
    ["number", "name", "kind", "time_domain", "description", "erasing", "attributes"]
  return {
    number := ← required? fields "number" numberOfJson?
    name := ← textField? fields "name"
    kind := ← textField? fields "kind"
    timeDomain := ← textField? fields "time_domain"
    description := ← textField? fields "description"
    erasing := ← flagField? fields "erasing"
    attributes := ← listField? fields "attributes" AttributeEntry.ofJson? }

def SchemaEntry.ofJson? (j : Json) : Option SchemaEntry := do
  let fields ← j.record? ["name", "base", "attributes", "series"]
  return {
    name := ← required? fields "name" Json.string?
    base := ← textField? fields "base"
    attributes := ← listField? fields "attributes" AttributeEntry.ofJson?
    series := ← listField? fields "series" SeriesEntry.ofJson? }

def ChronicleEntry.ofJson? (j : Json) : Option ChronicleEntry := do
  let fields ← j.record? ["name", "schema", "description"]
  return {
    name := ← required? fields "name" Json.string?
    schema := ← required? fields "schema" Json.string?
    description := ← textField? fields "description" }

def Catalog.ofJson? (j : Json) : Option Catalog := do
  let fields ← j.record? ["value_types", "properties", "schemas", "chronicles"]
  return {
    valueTypes := ← listField? fields "value_types" ValueTypeEntry.ofJson?
    properties := ← listField? fields "properties" PropertyEntry.ofJson?
    schemas := ← listField? fields "schemas" SchemaEntry.ofJson?
    chronicles := ← listField? fields "chronicles" ChronicleEntry.ofJson? }

end ChronicleMeta
