import ChronicleMeta.Naming
import ChronicleMeta.Schema

/-! Chronicles with their resolved schemas. -/

namespace ChronicleMeta

/-- Where the one copy of a schema that several chronicles share was made. -/
inductive Origin where
  /-- It was resolved for the caller, who numbers such schemas. -/
  | resolved (serial : Nat)
  /-- It was made by the cache, which numbers them. -/
  | cached (serial : Nat)
deriving DecidableEq, Repr

/-- A schema that chronicles may share. -/
structure SharedSchema where
  schema : Schema
  /-- Which copy it is; absent if nothing else shares it. -/
  origin : Option Origin := none

/-- Whether both are one copy, or equal schemas. A schema with pending parts is equal to no other
copy, so the first way matters. -/
def SharedSchema.agrees (a b : SharedSchema) : Bool :=
  (a.origin.isSome && a.origin = b.origin) || a.schema.agrees b.schema

/-- A chronicle as read at some moment. -/
structure Chronicle where
  surrogate : Surrogate
  name : String
  fullName : String
  description : Option String := none
  /-- The parent, unless the chronicle is at the top. -/
  parent : Option Surrogate := none
  schema : SharedSchema

namespace Chronicle

/-- The chronicle of the full name, whose last part is its simple name. -/
def ofFullName (naming : Naming) (surrogate : Surrogate) (fullName : String)
    (description : Option String) (parent : Option Surrogate) (schema : SharedSchema) : Chronicle :=
  { surrogate, name := (naming.split fullName).2, fullName, description, parent, schema }

def isTopLevel (c : Chronicle) : Bool := c.parent.isNone

/-- Whether both are the same stored chronicle with the same contents. -/
def agrees (a b : Chronicle) : Bool :=
  a.surrogate.agrees b.surrogate && a.fullName = b.fullName && a.description = b.description
    && bothAgree Surrogate.agrees a.parent b.parent && a.schema.agrees b.schema

end Chronicle

end ChronicleMeta
