import ChronicleMeta.Store

/-! Requests that change a store. -/

namespace ChronicleMeta.Store

inductive Request where
  | createSchema (b : Blueprint)
  | updateSchema (b : Blueprint)
  | deleteSchema (x : Surrogate)
  | createValueType (t : ValueType)
  | insertValueType (t : ValueType)
  | createProperty (p : Property)
  | insertProperty (p : Property)
  | updateProperty (p : Property)
  | deleteProperty (x : Surrogate)
  | createChronicle (c : StoredChronicle)
  | deleteChronicle (x : Surrogate)

def Request.schema? : Request → Option Blueprint
  | .createSchema b | .updateSchema b => some b
  | _ => none

def serve (s : Store) : Request → Store
  | .createSchema b => (s.createSchema b).state
  | .updateSchema b => (s.updateSchema b).state
  | .deleteSchema x => (s.deleteSchema x).state
  | .createValueType t => (s.createValueType t).state
  | .insertValueType t => (s.insertValueType t).state
  | .createProperty p => (s.createProperty p).state
  | .insertProperty p => (s.insertProperty p).state
  | .updateProperty p => (s.updateProperty p).state
  | .deleteProperty x => (s.deleteProperty x).state
  | .createChronicle c => (s.createChronicle c).state
  | .deleteChronicle x => (s.deleteChronicle x).state

end ChronicleMeta.Store
