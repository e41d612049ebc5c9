import RecordGraph.Schema.Model

/-!
# Registries

A registry holds accepted models by name. Associations name their target, so the
models may be registered in any order; a target is looked up when it is needed.

The connecting column of an association is the declared one, or else follows from
the declarations: `<alias>Id` on a model that belongs to another; on a target, the
column of its first association that belongs back to the source; and `<source>Id`
where there is none, as in a join table.
-/

namespace RecordGraph

/-- The known models by name. -/
abbrev Registry := Dict Model

namespace Registry

/-- Add a model that is well formed and whose name is free. -/
def register (r : Registry) (model : Model) : Except SchemaError Registry := do
  model.validate
  if r.contains model.name then .error (.duplicateModel model.name)
  else .ok (r.insert model.name model)

/-- The model of a name. -/
def model (r : Registry) (name : String) : Except SchemaError Model :=
  match r.get? name with
  | some m => .ok m
  | none => .error (.unknownModel name)

/-- The model that an association of `source` leads to. -/
def target (r : Registry) (source : Model) (a : Association) : Except AssociationError Model :=
  match r.get? a.target with
  | some m => .ok m
  | none => .error (.unresolvedTarget source.name a.key a.target)

/-- The column of a model that belongs to another. -/
def ownColumn (a : Association) : String :=
  a.foreignKey.getD (a.canonicalAlias ++ "Id")

/-- The column of the target's first association that belongs back to the source. -/
def backReference? (r : Registry) (source : Model) (a : Association) : Option String := do
  let target ← r.get? a.target
  let back ← target.associations.find? fun b => b.kind == .belongsTo && b.target == source.name
  pure (ownColumn back)

/-- The connecting column of an association of `source`: on the source where it
belongs to the target, on the target where the target belongs to it, and the join
table's column for the source otherwise. -/
def foreignKey (r : Registry) (source : Model) (a : Association) : String :=
  match a.kind with
  | .belongsTo => ownColumn a
  | .hasOne | .hasMany =>
    a.foreignKey.getD ((r.backReference? source a).getD (source.name ++ "Id"))
  | .belongsToMany => a.foreignKey.getD (source.name ++ "Id")

/-- A declared column is always the connecting one. -/
theorem foreignKey_of_declared (r : Registry) (source : Model) {a : Association} {column : String}
    (h : a.foreignKey = some column) : r.foreignKey source a = column := by
  cases kind : a.kind <;> simp [foreignKey, kind, ownColumn, h]

end Registry

end RecordGraph
