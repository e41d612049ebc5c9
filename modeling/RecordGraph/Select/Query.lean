import RecordGraph.Select.Compiled
import RecordGraph.Select.Renaming
import RecordGraph.Select.Route

/-!
# Queries

A query is a descriptor on a registered model. Building one resolves associations
through the registry, so that conditions and includes name them by alias and an
include always leads to the model that its nested query reads.
-/

namespace RecordGraph

/-- A descriptor on a model of a registry. -/
structure Query where
  registry : Registry
  model : Model
  descriptor : Descriptor
deriving Repr

namespace Query

/-- Two queries are equal when their descriptors are. -/
instance : BEq Query := ⟨fun a b => a.descriptor == b.descriptor⟩

/-- The query for everything of a registered model. -/
def ofModel (r : Registry) (name : String) : Except Failure Query := do
  let model ← (r.model name).mapError Failure.schema
  pure { registry := r, model, descriptor := .ofModel model.name }

/-- Ask for one more condition. -/
def filter (q : Query) (c : Condition) : Query :=
  { q with descriptor := q.descriptor.addCondition ⟨Renaming.filter q.registry q.model c.fields⟩ }

/-- Ask for more attributes. -/
def attributes (q : Query) (exprs : List Expr) : Query :=
  { q with descriptor := q.descriptor.addAttributes exprs }

/-- Ask for more sort keys. -/
def order (q : Query) (terms : List OrderTerm) : Query :=
  { q with descriptor := q.descriptor.addOrderings terms }

/-- Ask for more groups. -/
def groupBy (q : Query) (exprs : List Expr) : Query :=
  { q with descriptor := q.descriptor.addGroupings exprs }

/-- Leave out more rows at the start. -/
def skip (q : Query) (n : Nat) : Query :=
  { q with descriptor := q.descriptor.skip n }

/-- Keep more rows. -/
def take (q : Query) (n : Nat) : Query :=
  { q with descriptor := q.descriptor.take n }

/-- Put a later query on the same model on top of this one. -/
def merge (q later : Query) : Query :=
  { q with descriptor := q.descriptor.merge later.descriptor }

/-- Refuse a nested query on another model than the target. -/
def checkNested (label : String) (target : Model) : Option Query → Except Failure Unit
  | some nested =>
    if nested.model.name = target.name then .ok ()
    else .error (.query (.nestedModelMismatch label target.name nested.model.name))
  | none => .ok ()

/-- Ask for the rows of the last association of a route, all of them or those of a
nested query. The association is looked up on the model of the query. -/
def including (q : Query) (route : Route) (nested : Option Query) : Except Failure Query := do
  let a ← (q.model.association route.key).mapError Failure.association
  let target ← (q.registry.target q.model a).mapError Failure.association
  checkNested a.canonicalAlias target nested
  let edge : Edge := { target := target.name, label := a.canonicalAlias }
  let asked : Include := .of edge (nested.map (·.descriptor))
  pure { q with descriptor := q.descriptor.addInclude asked route.overrides }

/-- Ask for the rows of every association, to be attached only. -/
def includeAll (q : Query) : Except Failure Query := do
  let descriptor ← q.model.associations.foldlM (fun d a => do
    let target ← (q.registry.target q.model a).mapError Failure.association
    let edge : Edge := { target := target.name, label := a.canonicalAlias }
    pure (d.addInclude (.plain edge) { associateOnly := some true })) q.descriptor
  pure { q with descriptor }

/-- The request for the rows of a query. -/
def toFind (q : Query) : Except Failure Request.Find :=
  q.descriptor.toFind q.registry

end Query

end RecordGraph
