import RecordGraph.Failure.Storage
import RecordGraph.Select.Request
import RecordGraph.Store.Row

/-!
# Backends

A backend is a state in which rows can be read and written. Its operations are
actions: they answer a result or an error, and the state they leave is the one that
holds afterwards in either case. Operations on a row also leave a row, again in
either case.
-/

namespace RecordGraph

/-- An operation on a state, which stays what it has become when the operation fails. -/
abbrev Action (σ α : Type) := ExceptT StorageError (StateM σ) α

/-- An operation on a row and a state. -/
abbrev RowAction (σ α : Type) := ExceptT StorageError (StateT Row (StateM σ)) α

namespace RowAction

variable {σ α : Type}

/-- An operation that does not look at the row. -/
def ofAction (action : Action σ α) : RowAction σ α := fun row s =>
  let (result, s) := action s
  ((result, row), s)

/-- The row. -/
def row : RowAction σ Row := fun row s => ((.ok row, row), s)

/-- Change the row. -/
def modifyRow (f : Row → Row) : RowAction σ Unit := fun row s => ((.ok (), f row), s)

end RowAction

/-- A state in which rows can be read and written. Requests name the transaction they
travel in; what that means is for the backend to say. -/
class Backend (σ : Type) where
  /-- A row that is not stored by this, but may be stored already. -/
  build (model : Model) (data : Record) (isNew : Bool) : Action σ Row
  findAll (model : Model) (request : Request.Find) : Action σ (List Row)
  findOne (model : Model) (request : Request.Find) : Action σ (Option Row)
  count (model : Model) (request : Request.Find) : Action σ Nat
  aggregate (model : Model) (column : String) (function : Request.Aggregate)
    (request : Request.Find) : Action σ Value
  create (model : Model) (data : Record) (request : Request.Write) : Action σ Row
  bulkCreate (model : Model) (rows : List Record) (request : Request.Write) : Action σ (List Row)
  /-- Write the same values into rows; the answer is their number. -/
  update (model : Model) (values : Record) (request : Request.Update) : Action σ Nat
  /-- Write a row over the one of its key, or create it; the answer says whether it is new. -/
  upsert (model : Model) (values : Record) (request : Request.Write) : Action σ (Row × Bool)
  destroy (model : Model) (request : Request.Destroy) : Action σ Nat
  restore (model : Model) (request : Request.Destroy) : Action σ Nat
  truncate (model : Model) (request : Request.Table) : Action σ Unit
  dropTable (model : Model) (request : Request.Table) : Action σ Unit
  beginTransaction : Action σ Nat
  commit (transaction : Nat) : Action σ Unit
  rollback (transaction : Nat) : Action σ Unit
  /-- Store the row as it is. -/
  save (request : Request.Write) : RowAction σ Unit
  /-- Connect the row under a label with exactly the given rows. -/
  setAssociation (label : String) (linked : Linked Row) (transaction : Option Nat) :
    RowAction σ Unit
  /-- Read the row again, with related rows. -/
  reload (request : Request.Reload) : RowAction σ Unit

end RecordGraph
