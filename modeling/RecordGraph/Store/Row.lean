import RecordGraph.Schema.Model

/-!
# Rows

A row is a record handed out by a store, with the model it belongs to and the
related rows that were loaded with it, filed by label. Related rows have related
rows of their own; `plain` writes a row and so many levels below it as one record.
-/

namespace RecordGraph

/-- What is connected to a row under a label. -/
inductive Linked (α : Type) where
  | none
  | one (item : α)
  | many (items : List α)
deriving Repr

namespace Linked

variable {α β : Type}

/-- The connected items. -/
def toList : Linked α → List α
  | .none => []
  | .one item => [item]
  | .many items => items

/-- A list where the association is to many, and the first item otherwise. -/
def ofList (toMany : Bool) (items : List α) : Linked α :=
  if toMany then .many items
  else match items with
    | item :: _ => .one item
    | [] => .none

/-- Change every connected item. -/
def map (f : α → β) : Linked α → Linked β
  | .none => .none
  | .one item => .one (f item)
  | .many items => .many (items.map f)

/-- The connected items as a value. -/
def toValue (f : α → Value) : Linked α → Value
  | .none => .null
  | .one item => f item
  | .many items => .arr (items.map f)

@[simp] theorem toList_ofList_many (items : List α) : (ofList true items).toList = items := rfl

@[simp] theorem toList_ofList_one (items : List α) :
    (ofList false items).toList = items.take 1 := by
  cases items <;> rfl

end Linked

/-- A record handed out by a store. -/
structure Row where
  model : Model
  data : Record
  /-- The row is not stored yet. -/
  isNew : Bool := false
  /-- The related rows that were loaded, by label. -/
  related : List (String × Linked Row) := []

namespace Row

instance : Inhabited Row := ⟨{ model := default, data := [] }⟩

/-- The value of an attribute. -/
def get? (row : Row) (key : String) : Option Value :=
  row.data.get? key

/-- Change a value in the row only. -/
def set (row : Row) (key : String) (value : Value) : Row :=
  { row with data := row.data.insert key value }

/-- File related rows under a label. -/
def file (row : Row) (label : String) (linked : Linked Row) : Row :=
  { row with related := Dict.insert row.related label linked }

/-- The related rows under a label, if they were loaded. -/
def related? (row : Row) (label : String) : Option (Linked Row) :=
  Dict.get? row.related label

/-- The record of a row with so many levels of related rows written into it. -/
def plain : Nat → Row → Record
  | 0, row => row.data
  | depth + 1, row =>
    row.data.extend (row.related.map fun entry =>
      (entry.1, entry.2.toValue fun related => .obj (plain depth related)))

@[simp] theorem plain_zero (row : Row) : plain 0 row = row.data := rfl

end Row

end RecordGraph
