import RecordGraph.Select.Query
import RecordGraph.Write.Cascade

/-!
# Repositories

A repository reads and writes the rows of one model through a backend, along
queries. Reads turn the query into a request. Writes store rows first and then, if
asked for, write related rows along the includes of the query.

An update may be made atomic: it then runs in a transaction of its own, which is
rolled back when anything fails, unless the caller brings a transaction.
-/

namespace RecordGraph

/-- Whether an update opens a transaction of its own. -/
inductive UpdateMode where
  | detached
  | transactional
deriving DecidableEq, Repr

/-- Access to the rows of one model. -/
structure Repository where
  registry : Registry
  model : Model
  updateMode : UpdateMode := .detached

namespace Repository

variable {σ : Type} [Backend σ]

/-- The repository for a registered model. -/
def ofModel (r : Registry) (name : String) (updateMode : UpdateMode) :
    Except Failure Repository := do
  let model ← (r.model name).mapError Failure.schema
  pure { registry := r, model, updateMode }

/-- An operation of the backend on the rows of the model. -/
def ask {α : Type} (repo : Repository) (action : Action σ α) : Run σ α :=
  Run.ofAction (Failure.ofStorage repo.model) action

/-- The query restricted to a primary key. -/
def byPrimaryKey (repo : Repository) (q : Query) (key : Value) : Except Failure Query := do
  let pk ← Cascade.primaryKey repo.model
  pure (q.filter (.build pk .eq key))

/-- Write related rows of a row that was just stored. -/
def cascade (repo : Repository) (q : Query) (draft : Draft) (mode : WriteMode)
    (options : PersistOptions) (row : Row) : Run σ Row :=
  if options.associate then
    Run.onRow row <|
      Cascade.persist repo.registry options repo.model draft mode q.descriptor.includes
  else pure row

/-- The rows of a query. -/
def findAll (repo : Repository) (q : Query) : Run σ (List Row) := do
  let request ← q.toFind
  repo.ask (Backend.findAll repo.model request)

/-- The first row of a query. -/
def findOne (repo : Repository) (q : Query) : Run σ (Option Row) := do
  let request ← q.toFind
  repo.ask (Backend.findOne repo.model request)

/-- The row of a query with a primary key. -/
def findById (repo : Repository) (q : Query) (key : Value) : Run σ (Option Row) := do
  let keyed ← repo.byPrimaryKey q key
  repo.findOne keyed

/-- The number of rows of a query. -/
def count (repo : Repository) (q : Query) : Run σ Nat := do
  let request ← q.toFind
  repo.ask (Backend.count repo.model request)

/-- An aggregate over a column of the rows of a query. -/
def aggregate (repo : Repository) (q : Query) (column : String) (function : Request.Aggregate) :
    Run σ Value := do
  let request ← q.toFind
  repo.ask (Backend.aggregate repo.model column function request)

/-- Store a row with its related rows. -/
def create (repo : Repository) (q : Query) (draft : Draft) (options : PersistOptions) :
    Run σ Row := do
  let row ← repo.ask (Backend.create repo.model draft.fields options.toWrite)
  repo.cascade q draft .create options row

/-- The entries of a filter that say what a column is: those under a free key with
something else than an operator map. -/
def literals (filter : Record) : Record :=
  List.filter (fun entry => !Filter.isReserved entry.1 && !Filter.isOperatorMap entry.2) filter

/-- The first row of a query, or else a new one made from the defaults and from what
the query says its columns are. -/
def findOrCreate (repo : Repository) (q : Query) (defaults : Draft) (options : PersistOptions) :
    Run σ (Row × Bool) := do
  let request ← q.toFind
  let found ← repo.ask <|
    Backend.findOne repo.model { request with transaction := options.transaction }
  match found with
  | some row => pure (row, false)
  | none =>
    let fields := defaults.fields.extend (literals q.descriptor.selection.filter)
    let row ← repo.create q { defaults with fields } options
    pure (row, true)

/-- Store rows, all or none, and then their related rows one after the other. -/
def bulkCreate (repo : Repository) (q : Query) (drafts : List Draft) (options : PersistOptions) :
    Run σ (List Row) := do
  let rows ← repo.ask <|
    Backend.bulkCreate repo.model (drafts.map (·.fields)) options.toWrite
  (rows.zip drafts).mapM fun (row, draft) => repo.cascade q draft .create options row

/-- Write the values of a draft into the rows of a query and read those rows, then
write their related rows. -/
def updateRows (repo : Repository) (q : Query) (draft : Draft) (options : PersistOptions) :
    Run σ (List Row) := do
  let filter := q.descriptor.selection.filter
  let limit := q.descriptor.selection.limit?
  if !draft.fields.isEmpty then
    let _ ← repo.ask <| Backend.update repo.model draft.fields
      { filter, limit, validate := options.validate, transaction := options.transaction }
  let rows ← repo.ask <|
    Backend.findAll repo.model { filter, limit, transaction := options.transaction }
  rows.mapM (repo.cascade q draft .update options)

/-- Open a transaction. -/
def beginTransaction (repo : Repository) : Run σ Nat :=
  repo.ask Backend.beginTransaction

/-- Close a transaction and keep what happened. -/
def commit (repo : Repository) (transaction : Nat) : Run σ Unit :=
  repo.ask (Backend.commit transaction)

/-- Close a transaction and go back to where it began. -/
def rollback (repo : Repository) (transaction : Nat) : Run σ Unit :=
  repo.ask (Backend.rollback transaction)

/-- Write the values of a draft into the rows of a query, with their related rows. A
transaction of its own is rolled back on failure; that the rolling back fails, too, is
not reported. -/
def update (repo : Repository) (q : Query) (draft : Draft) (options : PersistOptions) :
    Run σ (List Row) :=
  if repo.updateMode = .detached ∨ options.transaction.isSome then
    repo.updateRows q draft options
  else do
    let transaction ← repo.beginTransaction
    match ← Run.attempt (repo.updateRows q draft { options with transaction }) with
    | .ok rows =>
      repo.commit transaction
      pure rows
    | .error failure =>
      let _ ← Run.attempt (repo.rollback transaction)
      throw failure

/-- Write a row over the one of its key, or create it, with its related rows. -/
def upsert (repo : Repository) (q : Query) (draft : Draft) (options : PersistOptions) :
    Run σ (Row × Bool) := do
  let (row, created) ← repo.ask (Backend.upsert repo.model draft.fields options.toWrite)
  let row ← repo.cascade q draft (if created then .create else .update) options row
  pure (row, created)

/-- Update the row of a query with the primary key of the draft, or create a row if it
has none. -/
def save (repo : Repository) (q : Query) (draft : Draft) (options : PersistOptions) :
    Run σ (Option Row) := do
  let pk ← Cascade.primaryKey repo.model
  match Value.present? (draft.fields.get? pk) with
  | some key =>
    let keyed ← repo.byPrimaryKey q key
    let rows ← repo.update keyed draft options
    pure rows.head?
  | none =>
    let row ← repo.create q draft options
    pure (some row)

/-- What a query says about the rows to destroy or bring back. -/
def scope (q : Query) (force : Bool) (transaction : Option Nat) : Request.Destroy where
  filter := q.descriptor.selection.filter
  limit := q.descriptor.selection.limit?
  force := force
  transaction := transaction

/-- Destroy the rows of a query. -/
def destroy (repo : Repository) (q : Query) (force : Bool) (transaction : Option Nat) :
    Run σ Nat :=
  repo.ask (Backend.destroy repo.model (scope q force transaction))

/-- Bring the destroyed rows of a query back. -/
def restore (repo : Repository) (q : Query) (transaction : Option Nat) : Run σ Nat :=
  repo.ask (Backend.restore repo.model (scope q false transaction))

/-- Remove all rows of the model. -/
def truncate (repo : Repository) (request : Request.Table) : Run σ Unit :=
  repo.ask (Backend.truncate repo.model request)

/-- Drop the table of the model. -/
def dropTable (repo : Repository) (request : Request.Table) : Run σ Unit :=
  repo.ask (Backend.dropTable repo.model request)

end Repository

end RecordGraph
