import ChronicleMeta.SortedMap
import ChronicleMeta.Surrogate
import ChronicleMeta.Value

/-! The types of attribute values. -/

namespace ChronicleMeta

/-- A domain of values: those of one kind or, of a restricted type, those on a list. -/
structure ValueType where
  surrogate : Surrogate
  name : String
  kind : ValueKind
  /-- The allowed values of a restricted type by their text, with their descriptions. -/
  restriction : Option (SortedMap String (Option String)) := none
  nullable : Bool := false

namespace ValueType

def isRestricted (t : ValueType) : Bool := t.restriction.isSome

def allowedTexts (t : ValueType) : List String := (t.restriction.map (·.keys)).getD []

def kindError (t : ValueType) (v : Value) : Error :=
  .invalidValue t.name v.toText s!"expected a {t.kind.name} value"

def restrict (t : ValueType) (values : List (Value × Option String)) : Except Error ValueType :=
  match values.find? (·.1.kind ≠ t.kind) with
  | some (v, _) => .error (t.kindError v)
  | none =>
    .ok { t with restriction := some (.ofList (values.map fun (v, about) => (v.toText, about))) }

def ofTexts (surrogate : Surrogate) (name : String) (texts : List String) : ValueType where
  surrogate
  name
  kind := .text
  restriction := some (.ofList (texts.map fun s => (s, none)))

def upgrade (t : ValueType) (id : UInt64) : Except Error ValueType :=
  (t.surrogate.upgrade id).map fun s => { t with surrogate := s }

def check (t : ValueType) (v : Value) : Except Error Unit :=
  if v.kind ≠ t.kind then .error (t.kindError v)
  else match t.restriction with
    | none => .ok ()
    | some allowed =>
      if allowed.contains v.toText then .ok ()
      else .error (.invalidValue t.name v.toText "not an allowed value")

def accepts (t : ValueType) (v : Value) : Bool := (t.check v).isOk

def isCompatible (t : ValueType) : Option Value → Bool
  | none => t.nullable
  | some v => t.accepts v

def description? (t : ValueType) (v : Value) : Option String :=
  ((t.restriction.bind (·.get? v.toText))).join

def parse (t : ValueType) (input : String) : Except Error Value := do
  let v ← Value.readAs t.name t.kind input
  t.check v
  return v

def format (t : ValueType) (v : Value) : Except Error String := do
  t.check v
  return v.toText

def agrees (a b : ValueType) : Bool :=
  a.surrogate.agrees b.surrogate && a.name = b.name && a.kind = b.kind
    && a.restriction = b.restriction && a.nullable = b.nullable

end ValueType

end ChronicleMeta
