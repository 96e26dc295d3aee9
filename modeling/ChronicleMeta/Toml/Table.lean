import ChronicleMeta.Json.Basic

/-!
Tables in the form of TOML. Headers and keys name tables by paths, and no name gets two values: a
table is defined by one header at most, and a key of several names adds to no table but one that is
new or comes from another such key.
-/

namespace ChronicleMeta.Toml

inductive Definition where
  | implied
  | header
  | key
deriving DecidableEq, Repr

inductive Node where
  | value (j : Json)
  | table (definition : Definition) (fields : List (String × Node))

abbrev Fields : Type := List (String × Node)

def Fields.set (fields : Fields) (name : String) (node : Node) : Fields :=
  if fields.any (·.1 = name) then fields.map fun f => if f.1 = name then (name, node) else f
  else fields ++ [(name, node)]

/-- The fields with a value under the path. The tables on the way must have no headers, and the last
of them comes from a key. -/
def Fields.assign (j : Json) : List String → Fields → Option Fields
  | [], _ => none
  | [name], fields =>
    match fields.lookup name with
    | none => some (fields.set name (.value j))
    | some _ => none
  | name :: path, fields =>
    match fields.lookup name with
    | none => (Fields.assign j path []).map fun below => fields.set name (.table .key below)
    | some (.table .header _) | some (.value _) => none
    | some (.table definition below) =>
      if path.length = 1 ∧ definition ≠ .key then none
      else (Fields.assign j path below).map fun below => fields.set name (.table definition below)

def Fields.define (change : Fields → Option Fields) : List String → Fields → Option Fields
  | [], _ => none
  | [name], fields =>
    match fields.lookup name with
    | none => (change []).map fun below => fields.set name (.table .header below)
    | some (.table .implied below) =>
      (change below).map fun below => fields.set name (.table .header below)
    | some _ => none
  | name :: path, fields =>
    match fields.lookup name with
    | none => (Fields.define change path []).map fun below => fields.set name (.table .implied below)
    | some (.value _) => none
    | some (.table definition below) =>
      (Fields.define change path below).map fun below => fields.set name (.table definition below)

def Fields.assignAll (pairs : List (List String × Json)) (fields : Fields) : Option Fields :=
  pairs.foldlM (fun fields (path, j) => Fields.assign j path fields) fields

mutual

def Node.toJson : Node → Json
  | .value j => j
  | .table _ fields => .object (fieldsToJson fields)

def fieldsToJson : List (String × Node) → List (String × Json)
  | [] => []
  | (name, node) :: fields => (name, node.toJson) :: fieldsToJson fields

end

end ChronicleMeta.Toml
