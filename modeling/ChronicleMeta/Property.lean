import ChronicleMeta.ValueType

/-! Properties: named, typed characteristics that attributes refer to. -/

namespace ChronicleMeta

structure Property where
  surrogate : Surrogate
  name : String
  valueType : ValueType
  indexed : Bool := false

namespace Property

/-- Whether an attribute of the property may have the value, or none. -/
def accepts (p : Property) (v : Option Value) : Bool := p.valueType.isCompatible v

def upgrade (p : Property) (id : UInt64) : Except Error Property :=
  (p.surrogate.upgrade id).map fun s => { p with surrogate := s }

/-- Whether both are the same stored property with the same contents. -/
def agrees (p q : Property) : Bool :=
  p.surrogate.agrees q.surrogate && p.name = q.name && p.indexed = q.indexed
    && p.valueType.agrees q.valueType

def isBuiltin (p : Property) : Bool := p.surrogate.database.isBuiltin

end Property

/-- A change of properties, which may depend on those met before and may fail. -/
abbrev PropertyMap (σ : Type) := Property → StateT σ (Except Error) Property

end ChronicleMeta
