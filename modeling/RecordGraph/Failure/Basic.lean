import RecordGraph.Failure.Validation
import RecordGraph.Select.Expr

/-!
# Failures

Whatever goes wrong above the store is a failure: an error of the schema, of a
query, of an association, of the store, or a validation error. A refusal of the
store always becomes a validation error of the model that was written, so a failure
of the store is never a refusal.
-/

namespace RecordGraph

/-- What can go wrong in working with a store. -/
inductive Failure where
  | schema (error : SchemaError)
  | query (error : QueryError)
  | association (error : AssociationError)
  | validation (error : ValidationError)
  | storage (error : StorageError)
  | protocol (error : ProtocolError)
deriving Repr

namespace Failure

/-- The text of a failure. -/
def message : Failure → String
  | .schema error => "catalog error: " ++ error.message
  | .query error => "query error: " ++ error.message
  | .association error => "association error: " ++ error.message
  | .validation error => error.text
  | .storage error => "storage error: " ++ error.message
  | .protocol error => "protocol error: " ++ error.message

/-- An error of the store while a row of the model was written or read. -/
def ofStorage (model : Model) : StorageError → Failure
  | .validation refusal => .validation (.ofRefusal model refusal)
  | error => .storage error

/-- Put the keys of a validation error below a label; nothing else has keys. -/
def under (label : String) : Failure → Failure
  | .validation error => .validation (error.under label)
  | failure => failure

/-- The validation error of a failure that is one. -/
def validation? : Failure → Option ValidationError
  | .validation error => some error
  | _ => none

/-- An error of the store while a row was written that is filed under a label. -/
def ofStorageUnder (label : String) (model : Model) (error : StorageError) : Failure :=
  (ofStorage model error).under label

end Failure

end RecordGraph
