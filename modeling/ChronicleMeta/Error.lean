import ChronicleMeta.Identity
import ChronicleMeta.Text.Quoted

/-!
Why an operation fails. An error reports what was wrong with a request; a fault is a breach of an
invariant that the library itself has to keep.
-/

namespace ChronicleMeta

inductive DefinitionKey where
  | number (n : UInt32)
  | name (s : String)
deriving DecidableEq, Repr

def DefinitionKey.text : DefinitionKey → String
  | .number n => s!"#{n}"
  | .name s => Text.quote s

inductive ArgumentFault where
  | idNotPositive (kind : ObjectKind)
  /-- A value is to be read by the property of an attribute that has none. -/
  | noProperty (number : UInt32) (input : String)
  /-- The number of a series attribute is reserved for a built-in property. -/
  | reservedNumber (series number firstCustom : UInt32)
  | emptyName
  /-- The simple name of a chronicle holds the separator of full names. -/
  | separatorInName (name : String) (separator : Char)
  | alreadyExists (kind : ObjectKind) (name : String)
  | alreadyPersisted (kind : ObjectKind) (surrogate : String)
  | notOwned (surrogate : String) (kind : ObjectKind) (database : DatabaseId)
  | builtinProperty (name : String)
  /-- A property that a stored schema refers to is to be deleted. -/
  | propertyInUse (name schema : String)
deriving DecidableEq, Repr

def ArgumentFault.message : ArgumentFault → String
  | .idNotPositive kind => s!"{kind.text} id must be positive"
  | .noProperty number input => s!"attribute #{number} has no property to parse {Text.quote input} with"
  | .reservedNumber series number first =>
    s!"series #{series}: attribute #{number} is reserved, custom attributes start at #{first}"
  | .emptyName => "chronicle name is empty"
  | .separatorInName name separator =>
    s!"chronicle name {Text.quote name} contains the separator {Text.quoteChar separator}"
  | .alreadyExists kind name => s!"{kind.words} {name} already exists"
  | .alreadyPersisted kind surrogate => s!"{kind.text} {surrogate} is already persisted"
  | .notOwned surrogate kind database => s!"{surrogate} is not a {kind.text} of database {database.text}"
  | .builtinProperty name => s!"built-in property {name} cannot be deleted"
  | .propertyInUse name schema => s!"property {name} is still used by schema {schema}"

inductive Error where
  /-- Following base schemas leads back to one met before. -/
  | schemaCycle (chain : List String)
  | schemaChainTooDeep (schema : String) (maxDepth : Nat) (chain : List String)
  | duplicateNumber (container : String) (number : UInt32)
  /-- The name is taken by the component `owner` of the container. -/
  | duplicateName (container name : String) (owner number : UInt32)
  | incompleteSchema (schema reason : String)
  /-- The edit excludes one made before in the same session. -/
  | conflictingEdit (schema reason : String)
  | schemaInUse (schema dependent : String)
  | incompatibleValue (property valueType value : String)
  /-- The text is no value of the type, or the value is not allowed. -/
  | invalidValue (valueType input reason : String)
  | notEditable (what : String)
  | inConstruction (kind : ObjectKind)
  | alreadyCommitted (kind : ObjectKind) (id : UInt64)
  | attributeNotFound (owner : String) (key : DefinitionKey)
  | seriesNotFound (owner : String) (key : DefinitionKey)
  | schemaNotFound (what : String)
  | propertyNotFound (what : String)
  | valueTypeNotFound (what : String)
  | chronicleNotFound (what : String)
  | permissionDenied (permission object : String)
  | invalidArgument (reason : String)
  | backend (reason : String)
  | configuration (reason : String)
  | internal (reason : String)
deriving DecidableEq, Repr

namespace Error

def ofArgument (fault : ArgumentFault) : Error := .invalidArgument fault.message

def key : Error → String
  | .schemaCycle .. => "schema.cycle"
  | .schemaChainTooDeep .. => "schema.chain_too_deep"
  | .duplicateNumber .. => "container.duplicate_number"
  | .duplicateName .. => "container.duplicate_name"
  | .incompleteSchema .. => "schema.incomplete"
  | .conflictingEdit .. => "schema.conflicting_edit"
  | .schemaInUse .. => "schema.in_use"
  | .incompatibleValue .. => "value.incompatible"
  | .invalidValue .. => "value.invalid"
  | .notEditable .. => "state.not_editable"
  | .inConstruction .. => "state.in_construction"
  | .alreadyCommitted .. => "state.already_committed"
  | .attributeNotFound .. => "not_found.attribute"
  | .seriesNotFound .. => "not_found.series"
  | .schemaNotFound .. => "not_found.schema"
  | .propertyNotFound .. => "not_found.property"
  | .valueTypeNotFound .. => "not_found.value_type"
  | .chronicleNotFound .. => "not_found.chronicle"
  | .permissionDenied .. => "permission.denied"
  | .invalidArgument .. => "invalid_argument"
  | .backend .. => "backend"
  | .configuration .. => "configuration"
  | .internal .. => "internal"

def arrows (chain : List String) : String := " -> ".intercalate chain

def message : Error → String
  | .schemaCycle chain => s!"cycle detected in base schema chain: {arrows chain}"
  | .schemaChainTooDeep schema maxDepth chain =>
    s!"base schema chain of {schema} exceeds {maxDepth} schemas: {arrows chain}"
  | .duplicateNumber container number => s!"{container} #{number} already exists"
  | .duplicateName container name owner number =>
    s!"{container} name {Text.quote name} already used by #{owner}, cannot be given to #{number}"
  | .incompleteSchema schema reason => s!"schema {schema} is incomplete: {reason}"
  | .conflictingEdit schema reason => s!"schema {schema}: {reason}"
  | .schemaInUse schema dependent => s!"schema {schema} is still used by {dependent}"
  | .incompatibleValue property valueType value =>
    s!"value {Text.quote value} is incompatible with property {property} of type {valueType}"
  | .invalidValue valueType input reason => s!"invalid {valueType} value {Text.quote input}: {reason}"
  | .notEditable what => s!"{what} is not in edit mode"
  | .inConstruction kind => s!"{kind.text} surrogate is still in construction"
  | .alreadyCommitted kind id => s!"{kind.text} surrogate already committed with id {id}"
  | .attributeNotFound owner key => s!"attribute {key.text} not found in {owner}"
  | .seriesNotFound owner key => s!"series {key.text} not found in {owner}"
  | .schemaNotFound what => s!"schema not found: {what}"
  | .propertyNotFound what => s!"property not found: {what}"
  | .valueTypeNotFound what => s!"value type not found: {what}"
  | .chronicleNotFound what => s!"chronicle not found: {what}"
  | .permissionDenied permission object => s!"permission {permission} denied on {object}"
  | .invalidArgument reason => s!"invalid argument: {reason}"
  | .backend reason => s!"backend error: {reason}"
  | .configuration reason => s!"configuration error: {reason}"
  | .internal reason => s!"internal error: {reason}"

def isNotFound : Error → Bool
  | .attributeNotFound .. | .seriesNotFound .. | .schemaNotFound .. | .propertyNotFound ..
  | .valueTypeNotFound .. | .chronicleNotFound .. => true
  | _ => false

def isStructural : Error → Bool
  | .schemaCycle .. | .schemaChainTooDeep .. | .duplicateNumber .. | .duplicateName ..
  | .incompleteSchema .. | .conflictingEdit .. | .schemaInUse .. => true
  | _ => false

end Error

inductive Fault where
  /-- The complete components of a container and its names differ in number. -/
  | indexOutOfStep (label : String)
  | noIdentity (kind : ObjectKind)
  | countBelowZero
  | tableTooLarge (places : Nat)
deriving DecidableEq, Repr

inductive Failure where
  | error (e : Error)
  | fault (f : Fault)
deriving DecidableEq, Repr

/-- A result that may be an error, as one that may be an error or a fault. -/
def Failure.ofError {α : Type} (r : Except Error α) : Except Failure α := r.mapError .error

/-- A result that may be a fault, as one that may be an error or a fault. -/
def Failure.ofFault {α : Type} (r : Except Fault α) : Except Failure α := r.mapError .fault

instance : MonadLift (Except Error) (Except Failure) := ⟨Failure.ofError⟩

instance : MonadLift (Except Fault) (Except Failure) := ⟨Failure.ofFault⟩

end ChronicleMeta
