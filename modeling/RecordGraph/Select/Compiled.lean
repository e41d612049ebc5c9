import RecordGraph.Failure.Basic
import RecordGraph.Schema.Registry
import RecordGraph.Select.Descriptor

/-!
# Requests from descriptors

A descriptor is turned into a request by conjoining its conditions and writing each
expression as a document. Only sort keys through associations need the registry:
every association on the way is resolved to its target model and its alias.
-/

namespace RecordGraph

namespace Expr

/-- An expression as an item of a projection: an attribute of the model itself by
name, a named expression with its name, anything else bare. -/
def projection : Expr → Request.Projection
  | .attribute [] name => .name name
  | .named name inner => .aliased inner.operand name
  | e => .expr e.operand

/-- An expression as a group. -/
def grouping : Expr → Value
  | .attribute path name => .str (dottedName path name)
  | e => e.operand

/-- The associations on a path from a model, each by target model and alias. -/
def hops (r : Registry) (model : Model) : List String → Except AssociationError (List Request.Hop)
  | [] => .ok []
  | key :: rest => do
    let a ← model.association key
    let target ← r.target model a
    let others ← hops r target rest
    pure (⟨target.name, a.canonicalAlias⟩ :: others)

end Expr

/-- A sort key of a model as a document. -/
def OrderTerm.toRequest (r : Registry) (model : String) (t : OrderTerm) :
    Except Failure Request.SortTerm :=
  match t.expr with
  | .attribute [] name => .ok { target := .str name, direction := t.direction }
  | .attribute path name => do
    let source ← (r.model model).mapError Failure.schema
    let hops ← (Expr.hops r source path).mapError Failure.association
    pure { path := hops, target := .str name, direction := t.direction }
  | .named name _ => .ok { target := .str name, direction := t.direction }
  | e => .ok { target := e.operand, direction := t.direction }

namespace Selection

/-- A list, unless it is empty. -/
def nonEmpty? {α : Type} : List α → Option (List α)
  | [] => none
  | items => some items

@[simp] theorem getD_nonEmpty? {α : Type} (items : List α) :
    (nonEmpty? items).getD [] = items := by
  cases items <;> rfl

/-- A count, unless it is zero. -/
def nonZero? (n : Nat) : Option Nat :=
  if n = 0 then none else some n

/-- All conditions as one filter. -/
def filter (s : Selection) : Record :=
  (Condition.all s.conditions).fields

/-- The projection, if attributes are asked for. -/
def projection? (s : Selection) : Option (List Request.Projection) :=
  nonEmpty? (s.attributes.map Expr.projection)

/-- The groups, if there are any. -/
def groups? (s : Selection) : Option (List Value) :=
  nonEmpty? (s.groupings.map Expr.grouping)

/-- The sort keys, if there are any. -/
def order? (r : Registry) (s : Selection) : Except Failure (Option (List Request.SortTerm)) := do
  let terms ← s.orderings.mapM (OrderTerm.toRequest r s.model)
  pure (nonEmpty? terms)

/-- The bound on the number of rows, if there is one. -/
def limit? (s : Selection) : Option Nat :=
  nonZero? s.taken

/-- The number of rows to leave out, if there is one. -/
def offset? (s : Selection) : Option Nat :=
  nonZero? s.skipped

end Selection

namespace Include

/-- The head of a request for the rows of an include. -/
def head (edge : Edge) : Option Selection → Request.IncludeHead
  | none => { model := edge.target, label := edge.label, required := edge.required }
  | some s =>
    { model := edge.target, label := edge.label, required := edge.required
      filter := Selection.nonEmpty? s.filter
      attributes := s.projection? }

mutual

/-- The request for the rows of an include; without further includes their list is
absent. -/
def toRequest : Include → Request.Include
  | .plain edge => .leaf (head edge none)
  | .nested edge s [] => .leaf (head edge (some s))
  | .nested edge s (i :: rest) => .node (head edge (some s)) (toRequest i :: toRequests rest)

/-- The requests for the rows of a list of includes. -/
def toRequests : List Include → List Request.Include
  | [] => []
  | i :: rest => toRequest i :: toRequests rest

end

end Include

namespace Descriptor

/-- The request for the rows of a descriptor. -/
def toFind (r : Registry) (d : Descriptor) : Except Failure Request.Find := do
  let order ← d.selection.order? r
  pure
    { filter := d.selection.filter
      attributes := d.selection.projection?
      includes := Selection.nonEmpty? (Include.toRequests d.includes)
      order
      group := d.selection.groups?
      offset := d.selection.offset?
      limit := d.selection.limit? }

end Descriptor

end RecordGraph
