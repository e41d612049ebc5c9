import RecordGraph.Schema.Error
import RecordGraph.Select.Operator
import RecordGraph.Text.Document

/-!
# What a store refuses

A store refuses a row by listing each attribute that breaks a rule. Every other
error is a cause of its own; a cause that another store reports in words alone is
kept as those words. The texts of all of them are in `StorageError.message`.
-/

namespace RecordGraph

/-- The rule that an attribute breaks. -/
inductive ViolationKind where
  | notNull
  | unique
  | stringType
  | other (code : String)
deriving DecidableEq, Repr

/-- One attribute that breaks a rule. -/
structure Violation where
  path : String
  kind : ViolationKind
  message : String
deriving DecidableEq, Repr

/-- A row that a store refuses, with all its violations. -/
structure Refusal where
  message : String
  violations : List Violation
deriving DecidableEq, Repr

/-- What a request asks for and the store does not do. -/
inductive Unsupported where
  | grouping
  | disjunction (operand : Value)
  | clause (clause : Value)
  | joinedKey (key : String)
  | joinedColumn (column : String)
  | call
  | operator (op : Operator)
  | ordering (target : Value)
  | projection
  | association (model label : String)
  | joinTable (label : String)
  | other (detail : String)
deriving Repr

/-- What is wrong with a transaction. -/
inductive TransactionError where
  | unknown (id : Nat)
  | other (detail : String)
deriving DecidableEq, Repr

/-- What a store cannot do with the rows it has. -/
inductive DatabaseError where
  | schema (error : SchemaError)
  | notPersisted (model : String)
  | relatedNotPersisted (model : String)
  /-- A sum that is no 64-bit integer, where the computation stops. -/
  | overflow
  | other (detail : String)
deriving DecidableEq, Repr

/-- Errors of a store. -/
inductive StorageError where
  | validation (refusal : Refusal)
  | unknownModel (name : String)
  | unsupported (feature : Unsupported)
  | notFound
  | transaction (error : TransactionError)
  | database (error : DatabaseError)
  | protocol (error : ProtocolError)
deriving Repr

/-- The text of what is not done. -/
def Unsupported.message : Unsupported → String
  | .grouping => "grouping"
  | .disjunction v => "disjunction over " ++ v.text
  | .clause v => "clause " ++ v.text
  | .joinedKey key => "filter key '" ++ key ++ "' requires a join"
  | .joinedColumn column => "column '" ++ column ++ "' requires a join"
  | .call => "function calls in filters"
  | .operator op => "operator " ++ op.key
  | .ordering target => "ordering by " ++ target.text
  | .projection => "projection of expressions"
  | .association model label => "model '" ++ model ++ "' has no association '" ++ label ++ "'"
  | .joinTable label => "association '" ++ label ++ "' has no join table"
  | .other detail => detail

/-- The text of what is wrong with a transaction. -/
def TransactionError.message : TransactionError → String
  | .unknown id => "unknown transaction " ++ toString id
  | .other detail => detail

/-- The text of what cannot be done with the rows. -/
def DatabaseError.message : DatabaseError → String
  | .schema error => error.message
  | .notPersisted model => model ++ " row is not persisted"
  | .relatedNotPersisted model => "associated " ++ model ++ " row is not persisted"
  | .overflow => "attempt to add with overflow"
  | .other detail => detail

/-- The text of an error of a store. -/
def StorageError.message : StorageError → String
  | .validation refusal => "validation error: " ++ refusal.message
  | .unknownModel name => "unknown model: " ++ name
  | .unsupported feature => "unsupported: " ++ feature.message
  | .notFound => "record not found"
  | .transaction error => "transaction error: " ++ error.message
  | .database error => "database error: " ++ error.message
  | .protocol error => "protocol error: " ++ error.message

end RecordGraph
