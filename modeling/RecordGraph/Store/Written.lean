import RecordGraph.Schema.Registry
import RecordGraph.Store.Row

/-!
# Written forms of rows

A row is written with its model, whether it is new, its record, and the related rows
that its model declares: those filed under the key or the alias of an association,
each a row in turn. What was filed under any other label is not written.
-/

namespace RecordGraph

namespace Registry

/-- The labels that related rows of a model are filed under. -/
def labels (r : Registry) (model : String) : List String :=
  match r.get? model with
  | some m => m.associations.flatMap fun a => [a.key, a.canonicalAlias]
  | none => []

end Registry

mutual

/-- The written form of a row. -/
def Row.toValue (r : Registry) : Row → Value
  | ⟨model, data, isNew, related⟩ =>
    .obj [("data", .obj data), ("model", .str model.name), ("new", .bool isNew),
      ("related", .obj (Row.relatedFields r (r.labels model.name) related))]

/-- The related rows under the labels, by label. -/
def Row.relatedFields (r : Registry) (labels : List String) : List (String × Linked Row) → Record
  | [] => []
  | (label, linked) :: rest =>
    let fields := Row.relatedFields r labels rest
    if labels.contains label then (label, Row.linkedValue r linked) :: fields else fields

/-- What is connected under one label. -/
def Row.linkedValue (r : Registry) : Linked Row → Value
  | .none => .null
  | .one row => row.toValue r
  | .many rows => .arr (Row.toValues r rows)

/-- The written forms of rows, in order. -/
def Row.toValues (r : Registry) : List Row → List Value
  | [] => []
  | row :: rows => row.toValue r :: Row.toValues r rows

end

@[simp] theorem Row.toValues_eq_map (r : Registry) (rows : List Row) :
    Row.toValues r rows = rows.map (Row.toValue r) := by
  induction rows with
  | nil => rfl
  | cons row rows ih => rw [Row.toValues, ih, List.map_cons]

end RecordGraph
