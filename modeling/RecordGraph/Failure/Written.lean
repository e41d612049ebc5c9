import RecordGraph.Failure.Basic

/-!
# Codes and written forms of failures

Every cause of a failure has a code that stays the same when its text is reworded:
the area it comes from and the cause. A failure that passes on an error of another
layer has the code of that error.
-/

namespace RecordGraph

/-- The code of an error about models. -/
def SchemaError.code : SchemaError → String
  | .unknownModel _ => "catalog.unknown_model"
  | .duplicateModel _ => "catalog.duplicate_model"
  | .missingPrimaryKey _ => "catalog.missing_primary_key"
  | .duplicateKey .. => "catalog.duplicate_key"

/-- The code of an error in building a query. -/
def QueryError.code : QueryError → String
  | .invalidLeftOperand _ => "query.invalid_left_operand"
  | .nestedModelMismatch .. => "query.nested_model_mismatch"

/-- The code of an error in following an association. -/
def AssociationError.code : AssociationError → String
  | .unknownAssociation .. => "association.unknown_association"
  | .unresolvedTarget .. => "association.unresolved_target"

/-- The code of an error in what is handed to a store. -/
def ProtocolError.code : ProtocolError → String
  | .unknownOperator _ => "protocol.unknown_operator"
  | .serialization _ => "protocol.serialization"

/-- The code of an error of a store. -/
def StorageError.code : StorageError → String
  | .validation _ => "storage.validation"
  | .unknownModel _ => "storage.unknown_model"
  | .unsupported _ => "storage.unsupported"
  | .notFound => "storage.not_found"
  | .transaction _ => "storage.transaction"
  | .database _ => "storage.database"
  | .protocol _ => "storage.protocol"

/-- The code of a failure. -/
def Failure.code : Failure → String
  | .schema error => error.code
  | .query error => error.code
  | .association error => error.code
  | .validation _ => "validation"
  | .storage error => error.code
  | .protocol error => error.code

/-- The written form of a rule that is broken. -/
def ViolationKind.toValue : ViolationKind → Value
  | .notNull => .str "not_null"
  | .unique => .str "unique"
  | .stringType => .str "string_type"
  | .other code => .obj [("other", .str code)]

/-- The rule that a document writes. A bare word that names no rule is the code of another. -/
def ViolationKind.ofValue : Value → ViolationKind
  | .str "not_null" => .notNull
  | .str "unique" => .unique
  | .str "string_type" => .stringType
  | .str code => .other code
  | .obj [("other", .str code)] => .other code
  | _ => .other ""

@[simp] theorem ViolationKind.ofValue_toValue (k : ViolationKind) : ofValue k.toValue = k := by
  cases k <;> rfl

/-- The written form of a violation. -/
def Violation.toValue (v : Violation) : Value :=
  .obj [("kind", v.kind.toValue), ("message", .str v.message), ("path", .str v.path)]

/-- The written form of one thing that is wrong with a key. -/
def ErrorItem.toValue (i : ErrorItem) : Value :=
  .obj [("kind", .str i.kind), ("message", .str i.message)]

namespace ValidationError

/-- The written form of errors by key. -/
def itemsValue (items : Dict (List ErrorItem)) : Value :=
  .obj (items.mapValues fun list => .arr (list.map ErrorItem.toValue))

/-- The written form of a validation error. -/
def toValue (e : ValidationError) : Value :=
  .obj [("attributes", itemsValue e.attributes), ("constraints", itemsValue e.constraints),
    ("message", .str e.message), ("model", .str e.model)]

end ValidationError

namespace Failure

/-- The written form of an error: its code, its text, and what else is known of it. -/
def document (code message : String) (details : Record) : Value :=
  .obj (Dict.ofList ([("error", .str code), ("message", .str message)] ++ details))

/-- The written form of a failure. A validation error is given in full, with the keys it blames. -/
def toValue (f : Failure) : Value :=
  document f.code f.message <| match f with
    | .validation e =>
      [("failing", .arr (e.failingKeys.map .str)), ("validation", e.toValue)]
    | _ => []

end Failure

/-- The written form of an error about models. -/
def SchemaError.toValue (e : SchemaError) : Value :=
  Failure.document e.code e.message []

/-- The written form of an error in building a query. -/
def QueryError.toValue (e : QueryError) : Value :=
  Failure.document e.code e.message []

/-- The written form of an error in following an association. -/
def AssociationError.toValue (e : AssociationError) : Value :=
  Failure.document e.code e.message []

/-- The written form of an error in what is handed to a store. -/
def ProtocolError.toValue (e : ProtocolError) : Value :=
  Failure.document e.code e.message []

/-- The written form of an error of a store. A refusal lists what was violated. -/
def StorageError.toValue (e : StorageError) : Value :=
  Failure.document e.code e.message <| match e with
    | .validation refusal => [("violations", .arr (refusal.violations.map Violation.toValue))]
    | _ => []

end RecordGraph
