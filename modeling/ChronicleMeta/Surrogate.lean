import ChronicleMeta.Error

/-!
Surrogates stand for objects that may not be stored yet. A pending surrogate is equal to nothing,
itself included; a committed one is equal to those of the same identity.
-/

namespace ChronicleMeta

/-- What stands for an object of a database: its kind and, once it is stored, its id. -/
structure Surrogate where
  database : DatabaseId
  kind : ObjectKind
  /-- The id assigned by the store, absent while the surrogate is pending. -/
  id? : Option UInt64
deriving DecidableEq, Repr

namespace Surrogate

def pending (database : DatabaseId) (kind : ObjectKind) : Surrogate := ⟨database, kind, none⟩

def committed (database : DatabaseId) (kind : ObjectKind) (id : UInt64) : Surrogate :=
  ⟨database, kind, some id⟩

def ofIdentity (k : Identity) : Surrogate := committed k.database k.kind k.id

def isPending (s : Surrogate) : Bool := s.id?.isNone

/-- The identity, if the object has one. -/
def identity? (s : Surrogate) : Option Identity := s.id?.map fun id => ⟨s.database, s.kind, id⟩

/-- The identity, or the error that there is none yet. -/
def identity (s : Surrogate) : Except Error Identity :=
  match s.identity? with
  | some k => .ok k
  | none => .error (.inConstruction s.kind)

/-- The identity of an object that has to have one. -/
def committedIdentity (s : Surrogate) : Except Fault Identity :=
  match s.identity? with
  | some k => .ok k
  | none => .error (.noIdentity s.kind)

/-- Whether both stand for the same stored object. Pending surrogates do not. -/
def agrees (a b : Surrogate) : Bool :=
  match a.identity?, b.identity? with
  | some j, some k => j = k
  | _, _ => false

/-- The surrogate with the id assigned by the store, which is positive and assigned once. -/
def upgrade (s : Surrogate) (id : UInt64) : Except Error Surrogate :=
  match s.id? with
  | some current => .error (.alreadyCommitted s.kind current)
  | none =>
    if id = 0 then .error (.ofArgument (.idNotPositive s.kind)) else .ok { s with id? := some id }

/-- The kind, the id and the database in one word. -/
def text (s : Surrogate) : String :=
  match s.identity? with
  | some k => k.text
  | none => s!"{s.kind.text}#<new>@{s.database.text}"

end Surrogate

/-- Whether both are absent, or both present and equal in the sense given. -/
def bothAgree {α : Type} (agrees : α → α → Bool) : Option α → Option α → Bool
  | none, none => true
  | some a, some b => agrees a b
  | _, _ => false

end ChronicleMeta
