/-! Databases, kinds of stored objects, and the identity of a stored object. -/

namespace ChronicleMeta

/-- The identity of a database, a UUID. -/
structure DatabaseId where
  uuid : BitVec 128
deriving DecidableEq, Repr, Inhabited

namespace DatabaseId

def builtin : DatabaseId := ⟨0⟩

def isBuiltin (d : DatabaseId) : Bool := d = builtin

def text (d : DatabaseId) : String :=
  let ds := Nat.toDigits 16 d.uuid.toNat
  let ds := List.replicate (32 - ds.length) '0' ++ ds
  let group (start length : Nat) : String := String.ofList ((ds.drop start).take length)
  "-".intercalate [group 0 8, group 8 4, group 12 4, group 16 4, group 20 12]

def hexDigit? (c : Char) : Option Nat :=
  if '0' ≤ c ∧ c ≤ '9' then some (c.toNat - '0'.toNat)
  else if 'a' ≤ c ∧ c ≤ 'f' then some (c.toNat - 'a'.toNat + 10)
  else if 'A' ≤ c ∧ c ≤ 'F' then some (c.toNat - 'A'.toNat + 10)
  else none

end DatabaseId

inductive ObjectKind where
  | schema
  | property
  | valueType
  | chronicle
  | series
deriving DecidableEq, Repr

namespace ObjectKind

def text : ObjectKind → String
  | .schema => "schema"
  | .property => "property"
  | .valueType => "value_type"
  | .chronicle => "chronicle"
  | .series => "series"

def words : ObjectKind → String
  | .valueType => "value type"
  | kind => kind.text

def all : List ObjectKind := [.schema, .property, .valueType, .chronicle, .series]

def ofText? (s : String) : Option ObjectKind := all.find? (·.text = s)

def rank : ObjectKind → Nat
  | .schema => 0
  | .property => 1
  | .valueType => 2
  | .chronicle => 3
  | .series => 4

end ObjectKind

structure Identity where
  database : DatabaseId
  kind : ObjectKind
  /-- Its number, unique in the database. -/
  id : UInt64
deriving DecidableEq, Repr

namespace Identity

def text (k : Identity) : String :=
  s!"{k.kind.text}#{k.id}@{k.database.text}"

instance : Ord Identity where
  compare := compareLex (compareOn fun k => k.database.uuid.toNat)
    (compareLex (compareOn fun k => k.kind.rank) (compareOn fun k => k.id))

instance : Std.TransOrd Identity :=
  inferInstanceAs (Std.TransCmp (compareLex (compareOn fun k : Identity => k.database.uuid.toNat)
    (compareLex (compareOn fun k : Identity => k.kind.rank) (compareOn fun k : Identity => k.id))))

instance : Std.LawfulEqOrd Identity where
  eq_of_compare {a b} h := by
    have ⟨hd, h⟩ := compareLex_eq_eq.1 h
    have ⟨hk, hi⟩ := compareLex_eq_eq.1 h
    obtain ⟨⟨da⟩, ka, ia⟩ := a
    obtain ⟨⟨db⟩, kb, ib⟩ := b
    have hd : da = db := BitVec.toNat_inj.1 (Std.LawfulEqCmp.eq_of_compare hd)
    have hk : ka.rank = kb.rank := Std.LawfulEqCmp.eq_of_compare hk
    have hi : ia = ib := Std.LawfulEqCmp.eq_of_compare hi
    have hk : ka = kb := by cases ka <;> cases kb <;> first | rfl | cases hk
    rw [hd, hk, hi]

end Identity

end ChronicleMeta
