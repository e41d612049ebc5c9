import RecordGraph.Select.Expr

/-!
# Conditions

A condition is the map that a store evaluates: under each key a literal, a column
reference or an operator map, and under the two reserved keys a list of further
maps. All entries of a map have to hold.

`and` folds the entries of one map into another. An entry under a free key moves
over. Where both sides have operator maps, the operators are put together; an entry
equal to the one in place adds nothing; whatever else meets a taken key is kept as a
map of its own under the conjunction key, so that nothing is overwritten.
-/

namespace RecordGraph

/-- A compiled condition on the rows of a model. -/
structure Condition where
  fields : Record := []
deriving Repr

/-- The right side of a comparison. -/
inductive Operand where
  | value (v : Value)
  | expr (e : Expr)
deriving Repr

/-- The document of a right side. -/
def Operand.toValue : Operand → Value
  | .value v => v
  | .expr e => e.operand

namespace Condition

instance : BEq Condition := ⟨fun a b => Value.beqFields a.fields b.fields⟩

/-- The condition that every row meets. -/
def always : Condition := {}

/-- Whether there is nothing to meet. -/
def isEmpty (c : Condition) : Bool :=
  c.fields.isEmpty

/-- One comparison under a key. Equality is written as the bare right side. -/
def build (key : String) (op : Operator) (right : Value) : Condition :=
  ⟨[(key, if op.isIdentity then right else .obj [(op.key, right)])]⟩

/-- One comparison of an expression. -/
def compare (left : Expr) (op : Operator) (right : Operand) : Except QueryError Condition := do
  let key ← left.leftKey
  pure (build key op right.toValue)

/-- A comparison of an expression with a list, such as membership or a range. -/
def compareList (left : Expr) (op : Operator) (rights : List Operand) :
    Except QueryError Condition := do
  let key ← left.leftKey
  pure (build key op (.arr (rights.map Operand.toValue)))

/-- The operators of an operator map that is neither a column reference nor a
function call. -/
def comparisons? : Value → Option Record
  | .obj fields =>
    if Filter.allReserved fields && !Filter.isReference fields then some fields else none
  | _ => none

/-- Put the operators of one map into another. An operator that is there with the
same operand adds nothing; the second part holds those that are there with another. -/
def mergeOperators (current incoming : Record) : Record × Record :=
  incoming.foldl (fun (merged, collisions) (op, operand) =>
    match merged.get? op with
    | some existing =>
      if existing == operand then (merged, collisions) else (merged, collisions.insert op operand)
    | none => (merged.insert op operand, collisions)) (current, [])

/-- Add a map to the conjunction of the fields. A conjunction that is no list yet
becomes the first element of one. -/
def pushConjunct (fields : Record) (item : Value) : Record :=
  match fields.get? Filter.andKey with
  | some (.arr items) => fields.insert Filter.andKey (.arr (items ++ [item]))
  | some other => fields.insert Filter.andKey (.arr [other, item])
  | none => fields.insert Filter.andKey (.arr [item])

/-- Add one entry that is not a conjunction. -/
def addEntry (fields : Record) (key : String) (value : Value) : Record :=
  match fields.get? key with
  | none => fields.insert key value
  | some existing =>
    match comparisons? existing, comparisons? value with
    | some current, some incoming =>
      let (merged, collisions) := mergeOperators current incoming
      let fields := fields.insert key (.obj merged)
      if collisions.isEmpty then fields else pushConjunct fields (.obj [(key, .obj collisions)])
    | _, _ =>
      if existing == value then fields else pushConjunct fields (.obj [(key, value)])

/-- Add one entry, the members of a conjunction one after the other. -/
def conjoinEntry (fields : Record) (entry : String × Value) : Record :=
  if entry.1 = Filter.andKey then
    match entry.2 with
    | .arr items => items.foldl pushConjunct fields
    | single => pushConjunct fields single
  else addEntry fields entry.1 entry.2

/-- Both conditions. -/
def and (a b : Condition) : Condition :=
  ⟨b.fields.foldl conjoinEntry a.fields⟩

/-- One condition or the other. -/
def or (a b : Condition) : Condition :=
  ⟨[(Filter.orKey, .arr [.obj a.fields, .obj b.fields])]⟩

/-- All conditions of a list. -/
def all (conditions : List Condition) : Condition :=
  conditions.foldl and always

@[simp] theorem and_always (a : Condition) : a.and always = a := rfl

@[simp] theorem all_nil : all [] = always := rfl

/-- Two bounds on one column end up in one operator map. -/
example :
    ((build "age" .gt (.ofInt 1)).and (build "age" .lt (.ofInt 9))).fields =
      [("age", .obj [("$gt", .ofInt 1), ("$lt", .ofInt 9)])] := rfl

/-- A second literal for a column is kept beside the first. -/
example :
    ((build "age" .eq (.ofInt 1)).and (build "age" .eq (.ofInt 2))).fields =
      [("$and", .arr [.obj [("age", .ofInt 2)]]), ("age", .ofInt 1)] := rfl

end Condition

end RecordGraph
