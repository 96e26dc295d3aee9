import ChronicleMeta.Error

/-!
Names of chronicles. Chronicles form a tree, and the full name of a chronicle is the path of simple
names that leads to it, with separators between.
-/

namespace ChronicleMeta

structure Naming where
  separator : Char := '.'
deriving DecidableEq, Repr

namespace Naming

/-- What stands before and after the last `sep`, if there is one. -/
def cutLast (sep : Char) : List Char → Option (List Char × List Char)
  | [] => none
  | c :: cs =>
    match cutLast sep cs with
    | some (before, after) => some (c :: before, after)
    | none => if c = sep then some ([], cs) else none

/-- The full name of the parent, if there is one, and the simple name. -/
def split (naming : Naming) (fullName : String) : Option String × String :=
  match cutLast naming.separator fullName.toList with
  | some (parent, name) => (some (String.ofList parent), String.ofList name)
  | none => (none, fullName)

def join (naming : Naming) (parent : Option String) (name : String) : String :=
  match parent with
  | some parent => String.ofList (parent.toList ++ naming.separator :: name.toList)
  | none => name

/-- Refuses a simple name that is empty or holds the separator. -/
def validate (naming : Naming) (name : String) : Except Error Unit :=
  if name.toList = [] then .error (.ofArgument .emptyName)
  else if naming.separator ∈ name.toList then
    .error (.ofArgument (.separatorInName name naming.separator))
  else .ok ()

end Naming

end ChronicleMeta
