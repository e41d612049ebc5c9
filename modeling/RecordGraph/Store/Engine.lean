import RecordGraph.Store.Backend
import RecordGraph.Store.Loading

/-!
# The engine in memory

The engine holds the registry, the database, and for every open transaction the
database as it was when the transaction began. Rolling a transaction back puts that
database in place of the current one, whatever else happened meanwhile; committing
forgets it. Transactions are not isolated from each other, so requests are carried
out alike inside and outside of them.
-/

namespace RecordGraph

/-- A database in memory with its open transactions. -/
structure Engine where
  registry : Registry
  database : Database := []
  /-- The databases to go back to, by transaction. -/
  snapshots : List (Nat × Database) := []
  lastTransaction : Nat := 0

namespace Engine

/-- An engine without tables. -/
def ofRegistry (r : Registry) : Engine :=
  { registry := r }

/-- The engine with a table in place of the one of its name. -/
def setTable (e : Engine) (name : String) (t : Table) : Engine :=
  { e with database := e.database.setTable name t }

/-- Number of stored rows of a table, hidden ones included. -/
def storedRows (e : Engine) (name : String) : Nat :=
  e.database.rowCount name

/-- Work on a table, which is made if it does not exist. When the work fails, the
table is as before. -/
def onTable {α : Type} (name : String) (work : Table → Except StorageError (α × Table)) :
    Action Engine α := fun e =>
  let table := e.database.openTable name
  match work table with
  | .ok (result, changed) => (.ok result, e.setTable name changed)
  | .error error => (.error error, e.setTable name table)

/-- The rows of records that were stored, of the registered model of the same name. -/
def handOut (model : Model) (data : Record) : Action Engine Row := do
  let e ← get
  let registered ← Loading.model e.registry model.name
  pure { model := registered, data }

/-- A row with a record that need not be stored. -/
def build (model : Model) (data : Record) (isNew : Bool) : Action Engine Row := do
  let row ← handOut model data
  pure { row with isNew }

/-- The rows that a request asks for. -/
def findAll (model : Model) (request : Request.Find) : Action Engine (List Row) := do
  let e ← get
  let registered ← Loading.model e.registry model.name
  Loading.select e.registry e.database registered request

/-- The first row that a request asks for. -/
def findOne (model : Model) (request : Request.Find) : Action Engine (Option Row) := do
  let rows ← findAll model { request with limit := some 1 }
  pure rows.head?

/-- The number of rows that a request asks for, whatever their shape. -/
def count (model : Model) (request : Request.Find) : Action Engine Nat := do
  let rows ← findAll model { request with attributes := none }
  pure rows.length

/-- An aggregate over values, unless it is a sum that is too great to be had. -/
def summarize (function : Request.Aggregate) (values : List Value) : Except StorageError Value :=
  if Result.overflows function values then .error (.database .overflow)
  else .ok (Result.aggregate function values)

/-- An aggregate over a column of the rows that a request asks for. -/
def aggregate (model : Model) (column : String) (function : Request.Aggregate)
    (request : Request.Find) : Action Engine Value := do
  let rows ← findAll model { request with attributes := none }
  summarize function (rows.filterMap (·.get? column))

/-- Store a new row. -/
def create (model : Model) (data : Record) (request : Request.Write) : Action Engine Row := do
  let record ← onTable model.name (·.insert model request.validate data)
  handOut model record

/-- Store new rows, all or none. -/
def bulkCreate (model : Model) (rows : List Record) (request : Request.Write) :
    Action Engine (List Row) := do
  let records ← onTable model.name (·.insertAll model request.validate rows)
  records.mapM (handOut model)

/-- Write the same values into the live rows that a filter accepts, all or none. -/
def update (model : Model) (values : Record) (request : Request.Update) : Action Engine Nat :=
  onTable model.name fun t => do
    let indices ← t.matching request.filter false request.limit
    let changed ← t.updateMany model request.validate indices values
    pure (indices.length, changed)

/-- The place of the row with the primary key of a record, if it has one. -/
def existing? (model : Model) (pk : String) (values : Record) (t : Table) :
    Except StorageError (Option Nat) :=
  match Value.present? (values.get? pk) with
  | some key => t.position? model key
  | none => .ok none

/-- Write a record over the row with its primary key, hidden or not, or store it as a
new row. -/
def upsert (model : Model) (values : Record) (request : Request.Write) :
    Action Engine (Row × Bool) := do
  let pk ← Loading.primaryKey model
  let (record, created) ← onTable model.name fun t => do
    match ← existing? model pk values t with
    | some index =>
      let (record, changed) ← t.updateAt model request.validate index values
      pure ((record, false), changed)
    | none =>
      let (record, changed) ← t.insert model request.validate values
      pure ((record, true), changed)
  let row ← handOut model record
  pure (row, created)

/-- Hide the live rows that a filter accepts if the model is paranoid and no force is
asked for; remove them otherwise. -/
def destroy (model : Model) (request : Request.Destroy) : Action Engine Nat :=
  onTable model.name fun t => do
    let indices ← t.matching request.filter false request.limit
    let changed :=
      if model.paranoid && !request.force then t.setHidden true indices else t.remove indices
    pure (indices.length, changed)

/-- Show the hidden rows that a filter accepts; only paranoid models have any. -/
def restore (model : Model) (request : Request.Destroy) : Action Engine Nat :=
  if model.paranoid then
    onTable model.name fun t => do
      let indices ← t.matching request.filter true request.limit
      pure (indices.length, t.setHidden false indices)
  else pure 0

/-- Remove all rows of a table. -/
def truncate (model : Model) : Action Engine Unit :=
  onTable model.name fun t => .ok ((), t.clear)

/-- Forget a table. -/
def dropTable (model : Model) : Action Engine Unit :=
  modify fun e => { e with database := e.database.dropTable model.name }

/-- Open a transaction. -/
def beginTransaction : Action Engine Nat := fun e =>
  let id := e.lastTransaction + 1
  (.ok id, { e with lastTransaction := id, snapshots := (id, e.database) :: e.snapshots })

/-- The database to go back to with a transaction, if it is open. -/
def snapshot? (e : Engine) (transaction : Nat) : Option Database :=
  (e.snapshots.find? (·.1 == transaction)).map (·.2)

/-- Close a transaction. -/
def close (transaction : Nat) (e : Engine) : Engine :=
  { e with snapshots := e.snapshots.filter (·.1 ≠ transaction) }

/-- Close a transaction and keep what happened. -/
def commit (transaction : Nat) : Action Engine Unit := fun e =>
  match e.snapshot? transaction with
  | some _ => (.ok (), e.close transaction)
  | none => (.error (.transaction (.unknown transaction)), e)

/-- Close a transaction and go back to where it began. -/
def rollback (transaction : Nat) : Action Engine Unit := fun e =>
  match e.snapshot? transaction with
  | some database => (.ok (), { e.close transaction with database })
  | none => (.error (.transaction (.unknown transaction)), e)

end Engine

end RecordGraph
