import ChronicleMeta.Surrogate

/-! Permissions to read and change stored objects. -/

namespace ChronicleMeta

inductive Permission where
  | read
  /-- To create an object, or one under it. -/
  | create
  | modify
  | delete
deriving DecidableEq, Repr

def Permission.text : Permission → String
  | .read => "read"
  | .create => "create"
  | .modify => "modify"
  | .delete => "delete"

def Permission.ofText? (s : String) : Option Permission :=
  [Permission.read, .create, .modify, .delete].find? (·.text = s)

abbrev Permissions : Type := Permission → Surrogate → Bool

namespace Permissions

def all : Permissions := fun _ _ => true

/-- Every permission is granted, except where a denial applies: one of the permission on the kind of
object, either of which may be left open. -/
def denying (denials : List (Option Permission × Option ObjectKind)) : Permissions := fun p x =>
  not (denials.any fun (q, kind) => q.all (· = p) && kind.all (· = x.kind))

/-- Refuses an operation without permission. -/
def check (granted : Permissions) (p : Permission) (x : Surrogate) : Except Error Unit :=
  if granted p x then .ok () else .error (.permissionDenied p.text x.text)

end Permissions

end ChronicleMeta
