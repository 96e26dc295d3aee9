import ChronicleMeta.Calendar.Reading
import ChronicleMeta.Error

/-! Scalar values and their text forms. -/

namespace ChronicleMeta

open Number (Binary64 readInt64 writeInt64)
open Calendar (Date)

inductive ValueKind where
  | text
  | integer
  | float
  | boolean
  | date
deriving DecidableEq, Repr

namespace ValueKind

def name : ValueKind → String
  | .text => "text"
  | .integer => "integer"
  | .float => "float"
  | .boolean => "boolean"
  | .date => "date"

def all : List ValueKind := [.text, .integer, .float, .boolean, .date]

def ofName? (s : String) : Option ValueKind := all.find? (·.name = s)

def ofName (s : String) : Except Error ValueKind :=
  match ofName? s with
  | some kind => .ok kind
  | none => .error (.valueTypeNotFound s)

end ValueKind

inductive Value where
  | text (s : String)
  | integer (i : Int64)
  | float (x : Binary64)
  | boolean (b : Bool)
  | date (d : Date)
deriving DecidableEq

namespace Value

def kind : Value → ValueKind
  | .text _ => .text
  | .integer _ => .integer
  | .float _ => .float
  | .boolean _ => .boolean
  | .date _ => .date

def text? : Value → Option String
  | .text s => some s
  | _ => none

def toText : Value → String
  | .text s => s
  | .integer i => String.ofList (writeInt64 i)
  | .float x => String.ofList x.text
  | .boolean b => if b then "true" else "false"
  | .date d => String.ofList d.text

/-- Reads a value of the kind, or tells why there is none. Blanks around it do not matter, except
in a text, which is taken as it is. -/
def read (kind : ValueKind) (input : String) : Except String Value :=
  let trimmed := Text.trim input.toList
  match kind with
  | .text => .ok (.text input)
  | .integer => ((readInt64 trimmed).map Value.integer).mapError (·.message)
  | .float => ((Binary64.read trimmed).map Value.float).mapError (·.message)
  | .boolean =>
    if trimmed = "true".toList then .ok (.boolean true)
    else if trimmed = "false".toList then .ok (.boolean false)
    else .error "expected true or false"
  | .date => ((Date.read false trimmed).map Value.date).mapError (·.message)

/-- Reads a value of the kind; `label` names the type in the error. -/
def readAs (label : String) (kind : ValueKind) (input : String) : Except Error Value :=
  (read kind input).mapError (.invalidValue label input)

def parse (kind : ValueKind) (input : String) : Except Error Value := readAs kind.name kind input

end Value

end ChronicleMeta
