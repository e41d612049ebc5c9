import RecordGraph.Data.Value

/-!
# Requests to a store

A request says what a store shall read or write, in plain documents. Every request
has a written form, `toValue`, in which parts that are absent leave no field; the
transaction that a request travels in is never part of it.

The includes of a request form a tree. An include whose list of further includes is
absent is a `leaf`; one with a list, be it empty, is a `node`.
-/

namespace RecordGraph.Request

/-- The direction of an ordering. -/
inductive Direction where
  | asc
  | desc
deriving DecidableEq, Repr

/-- What is computed over a column. -/
inductive Aggregate where
  | count
  | sum
  | avg
  | min
  | max
deriving DecidableEq, Repr

/-- One item of a projection. -/
inductive Projection where
  | name (name : String)
  | aliased (value : Value) (name : String)
  | expr (value : Value)
deriving Repr

/-- One association on the way to a sort key. -/
structure Hop where
  model : String
  label : String
deriving DecidableEq, Repr

/-- One sort key. -/
structure SortTerm where
  path : List Hop := []
  target : Value
  direction : Direction
deriving Repr

/-- An include without its further includes. -/
structure IncludeHead where
  model : String
  label : String
  /-- Rows without a related row are dropped. -/
  required : Bool := false
  filter : Option Record := none
  attributes : Option (List Projection) := none
deriving Repr

/-- Related rows to load along. -/
inductive Include where
  | leaf (head : IncludeHead)
  | node (head : IncludeHead) (children : List Include)
deriving Repr

/-- What to read. -/
structure Find where
  filter : Record := []
  attributes : Option (List Projection) := none
  includes : Option (List Include) := none
  order : Option (List SortTerm) := none
  group : Option (List Value) := none
  offset : Option Nat := none
  limit : Option Nat := none
  transaction : Option Nat := none
deriving Repr

/-- What to read again with a row. -/
structure Reload where
  includes : Option (List Include) := none
  transaction : Option Nat := none
deriving Repr

/-- How to write rows. -/
structure Write where
  /-- Check that text attributes hold text. -/
  validate : Bool := true
  transaction : Option Nat := none
deriving DecidableEq, Repr

/-- Which rows to change, and how. -/
structure Update where
  filter : Record := []
  limit : Option Nat := none
  validate : Bool := true
  transaction : Option Nat := none
deriving Repr

/-- Which rows to destroy or bring back. -/
structure Destroy where
  filter : Record := []
  limit : Option Nat := none
  /-- Remove rows even where they would only be hidden. -/
  force : Bool := false
  transaction : Option Nat := none
deriving Repr

/-- How to empty or drop a table. -/
structure Table where
  cascade : Bool := false
  transaction : Option Nat := none
deriving DecidableEq, Repr

/-- A field that is left out when there is nothing to write. -/
def field? (key : String) : Option Value → Record
  | some v => [(key, v)]
  | none => []

/-- A natural number as a value. -/
def natValue (n : Nat) : Value := .ofInt n

/-- The word for a direction. -/
def Direction.word : Direction → String
  | .asc => "ASC"
  | .desc => "DESC"

/-- Every aggregate. -/
def Aggregate.all : List Aggregate :=
  [.count, .sum, .avg, .min, .max]

/-- The word for an aggregate. -/
def Aggregate.word : Aggregate → String
  | .count => "count"
  | .sum => "sum"
  | .avg => "avg"
  | .min => "min"
  | .max => "max"

/-- A name is a text, a named expression a pair; any other expression stands bare. -/
def Projection.toValue : Projection → Value
  | .name n => .str n
  | .aliased v n => .arr [v, .str n]
  | .expr v => v

/-- A text is a name, a pair that ends in a text a named expression, and any other
document an expression. -/
def Projection.ofValue : Value → Projection
  | .str n => .name n
  | .arr [v, .str n] => .aliased v n
  | v => .expr v

/-- The aggregate of a word. -/
def Aggregate.ofWord? (s : String) : Option Aggregate :=
  all.find? (·.word == s)

/-- The written form of an association on the way. -/
def Hop.toValue (h : Hop) : Value :=
  .obj [("as", .str h.label), ("model", .str h.model)]

/-- The associations on the way, the target and the direction, in one list. -/
def SortTerm.toValue (t : SortTerm) : Value :=
  .arr (t.path.map Hop.toValue ++ [t.target, .str t.direction.word])

namespace IncludeHead

/-- The written form of an include, given that of its further includes. -/
def toValue (h : IncludeHead) (children : Option Value) : Value :=
  .obj <| Dict.ofList <|
    [("model", .str h.model), ("as", .str h.label), ("required", .bool h.required)] ++
    field? "where" (h.filter.map .obj) ++
    field? "attributes" (h.attributes.map fun items => .arr (items.map Projection.toValue)) ++
    field? "include" children

end IncludeHead

namespace Include

/-- An include without its further includes. -/
def head : Include → IncludeHead
  | .leaf h | .node h _ => h

/-- The further includes. -/
def children : Include → List Include
  | .leaf _ => []
  | .node _ children => children

mutual

/-- The written form of an include. -/
def toValue : Include → Value
  | .leaf h => h.toValue none
  | .node h children => h.toValue (some (.arr (toValues children)))

/-- The written forms of a list of includes. -/
def toValues : List Include → List Value
  | [] => []
  | i :: rest => toValue i :: toValues rest

end

end Include

namespace Find

/-- The includes, none where they are absent. -/
def includeList (f : Find) : List Include :=
  f.includes.getD []

/-- The written form of a request to read. The filter is always written, empty or not. -/
def toValue (f : Find) : Value :=
  .obj <| Dict.ofList <|
    [("where", .obj f.filter)] ++
    field? "attributes" (f.attributes.map fun items => .arr (items.map Projection.toValue)) ++
    field? "include" (f.includes.map fun items => .arr (Include.toValues items)) ++
    field? "order" (f.order.map fun terms => .arr (terms.map SortTerm.toValue)) ++
    field? "group" (f.group.map .arr) ++
    field? "offset" (f.offset.map natValue) ++
    field? "limit" (f.limit.map natValue)

end Find

namespace Reload

/-- Reload with a list of includes; an empty one is as good as none. -/
def ofIncludes (includes : List Include) (transaction : Option Nat) : Reload :=
  { includes := if includes.isEmpty then none else some includes, transaction }

/-- The includes, none where they are absent. -/
def includeList (r : Reload) : List Include :=
  r.includes.getD []

/-- The written form of a request to read again. -/
def toValue (r : Reload) : Value :=
  .obj (field? "include" (r.includes.map fun items => .arr (Include.toValues items)))

@[simp] theorem includeList_ofIncludes (includes : List Include) (transaction : Option Nat) :
    (ofIncludes includes transaction).includeList = includes := by
  cases includes <;> rfl

end Reload

/-- The written form of a request to write rows. -/
def Write.toValue (w : Write) : Value :=
  .obj [("validate", .bool w.validate)]

/-- The written form of a request to change rows. -/
def Update.toValue (u : Update) : Value :=
  .obj <| Dict.ofList <|
    [("where", .obj u.filter), ("validate", .bool u.validate)] ++
    field? "limit" (u.limit.map natValue)

/-- The written form of a request to destroy rows or bring them back. -/
def Destroy.toValue (d : Destroy) : Value :=
  .obj <| Dict.ofList <|
    [("where", .obj d.filter), ("force", .bool d.force)] ++
    field? "limit" (d.limit.map natValue)

/-- The written form of a request to empty or drop a table. -/
def Table.toValue (t : Table) : Value :=
  .obj [("cascade", .bool t.cascade)]

end RecordGraph.Request
