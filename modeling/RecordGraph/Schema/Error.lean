/-!
# What can be wrong with a schema

Errors name the thing that is missing or repeated; their texts are in one place.
-/

namespace RecordGraph

/-- Errors about models. -/
inductive SchemaError where
  | unknownModel (name : String)
  | duplicateModel (name : String)
  | missingPrimaryKey (model : String)
  | duplicateKey (model key : String)
deriving DecidableEq, Repr

/-- The text of an error about a model. -/
def SchemaError.message : SchemaError → String
  | .unknownModel name => "unknown model: " ++ name
  | .duplicateModel name => "model '" ++ name ++ "' is already registered"
  | .missingPrimaryKey model => "model '" ++ model ++ "' has no primary key"
  | .duplicateKey model key => "model '" ++ model ++ "' declares '" ++ key ++ "' more than once"

/-- Errors in following an association. -/
inductive AssociationError where
  | unknownAssociation (model key : String)
  | unresolvedTarget (model key target : String)
deriving DecidableEq, Repr

/-- The text of an error in following an association. -/
def AssociationError.message : AssociationError → String
  | .unknownAssociation model key => "model '" ++ model ++ "' has no association '" ++ key ++ "'"
  | .unresolvedTarget model key target =>
    "association '" ++ model ++ "." ++ key ++ "' targets unregistered model '" ++ target ++ "'"

end RecordGraph
