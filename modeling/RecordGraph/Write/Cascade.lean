import RecordGraph.Schema.Registry
import RecordGraph.Select.Compiled
import RecordGraph.Write.Draft
import RecordGraph.Write.Run

/-!
# Writing related rows

Once a row is stored, the includes of a query are walked in order. For each of them
that the draft supplies something for, the supplied rows are made into stored rows,
and the row is connected with exactly those. At the end the row is read again with
its includes.

A supplied row is only attached if it is stored already and either the include says
so or nothing but its key is given. Otherwise it is saved, and what it supplies for
its own associations is written along the includes below, in the same way; whatever
is wrong down there is reported below the label of the include. When the row itself
was just created, its key is written into the rows that are to hold it before they
are saved, so that they need not allow it to be missing.
-/

namespace RecordGraph

/-- Whether the row in hand was just created. -/
inductive WriteMode where
  | create
  | update
deriving DecidableEq, Repr

/-- How a write is done. -/
structure PersistOptions where
  /-- Check that text attributes hold text. -/
  validate : Bool := true
  /-- Write related rows along. -/
  associate : Bool := true
  transaction : Option Nat := none
deriving DecidableEq, Repr

/-- How the rows of a write are stored. -/
def PersistOptions.toWrite (o : PersistOptions) : Request.Write :=
  { validate := o.validate, transaction := o.transaction }

namespace Cascade

variable {σ : Type} [Backend σ]

/-- A column to write in advance, with its value. -/
abbrev Stamp := Option (String × Value)

/-- Write a column in advance. -/
def stampRecord (stamp : Stamp) (record : Record) : Record :=
  match stamp with
  | some (column, value) => record.insert column value
  | none => record

/-- The primary key column of a model. -/
def primaryKey (model : Model) : Except Failure String :=
  model.primaryKey.mapError Failure.schema

/-- The row that a caller names, and the record that was supplied for it. -/
def supply (target : Model) (pk : String) (depth : Nat) (stamp : Stamp) :
    Item → Run σ (Row × Record)
  | .row row =>
    let row := { row with data := stampRecord stamp row.data }
    pure (row, row.plain depth)
  | .record fields => do
    let record := stampRecord stamp fields
    let isNew := (Value.present? (record.get? pk)).isNone
    let row ← Run.ofAction (Failure.ofStorage target)
      (Backend.build target (Draft.ofRecord target record).fields isNew)
    pure (row, record)
  | .key key => do
    let record : Record := [(pk, key)]
    let row ← Run.ofAction (Failure.ofStorage target) (Backend.build target record false)
    pure (row, record)

/-- Whether a supplied row is attached as it is. -/
def attachesOnly (edge : Edge) (pk : String) (row : Row) (record : Record) : Bool :=
  !row.isNew && (edge.associateOnly || record.keys.all (· == pk))

/-- Make a supplied row into a stored one. -/
def coerce (options : PersistOptions) (edge : Edge) (depth : Nat)
    (descend : Model → Draft → WriteMode → RowRun σ Unit) (target : Model) (stamp : Stamp)
    (item : Item) : Run σ Row := do
  let pk ← primaryKey target
  let (row, record) ← supply target pk depth stamp item
  if attachesOnly edge pk row record then pure row
  else
    Run.onRow row do
      RowRun.ofAction (Failure.ofStorageUnder edge.label target) (Backend.save options.toWrite)
      let draft := Draft.ofRecord target record
      if draft.hasAssociations then
        RowRun.mapFailure (Failure.under edge.label)
          (descend target draft (if row.isNew then .create else .update))

/-- The key column to write in advance: that of a target that is to hold the key of a
row just created. -/
def stamp (mode : WriteMode) (a : Association) (column pk : String) (row : Row) : Stamp :=
  if mode = .create ∧ a.kind.isOwnedByTarget then
    (Value.present? (row.get? pk)).map fun key => (column, key)
  else none

/-- Whether the key column of a row that belongs to another is written with the row,
which then decides. -/
def keyIsWritten (a : Association) (column : String) (draft : Draft) : Bool :=
  a.kind == .belongsTo && (Value.present? (draft.fields.get? column)).isSome

/-- Write what the draft supplies for one include of a row. -/
def writeEdge (r : Registry) (options : PersistOptions) (model : Model) (draft : Draft)
    (mode : WriteMode) (pk : String) (edge : Edge) (depth : Nat)
    (descend : Model → Draft → WriteMode → RowRun σ Unit) : RowRun σ Unit :=
  match draft.associations.get? edge.label, model.association? edge.label with
  | some supplied, some a =>
    match r.get? a.target with
    | none => pure ()
    | some target => do
      let column := r.foreignKey model a
      if keyIsWritten a column draft then pure ()
      else
        let row ← RowRun.row
        let items ← RowRun.ofRun <| supplied.toList.mapM <|
          coerce options edge depth descend target (stamp mode a column pk row)
        RowRun.ofAction (Failure.ofStorage model) <|
          Backend.setAssociation edge.label (.ofList a.kind.isToMany items) options.transaction
  | _, _ => pure ()

/-- Walk a list of includes and read the row again; without includes do neither. -/
def enclose (options : PersistOptions) (model : Model) (includes : List Include)
    (walk : String → RowRun σ Unit) : RowRun σ Unit :=
  if includes.isEmpty then pure ()
  else do
    let pk ← primaryKey model
    walk pk
    RowRun.ofAction (Failure.ofStorage model) <|
      Backend.reload (.ofIncludes (Include.toRequests includes) options.transaction)

mutual

/-- Write what the draft supplies for a list of includes of a row. -/
def writeAll (r : Registry) (options : PersistOptions) (model : Model) (draft : Draft)
    (mode : WriteMode) (pk : String) : List Include → RowRun σ Unit
  | [] => pure ()
  | i :: rest => do
    writeOne r options model draft mode pk i
    writeAll r options model draft mode pk rest

/-- Write what the draft supplies for one include of a row. -/
def writeOne (r : Registry) (options : PersistOptions) (model : Model) (draft : Draft)
    (mode : WriteMode) (pk : String) : Include → RowRun σ Unit
  | .plain edge => writeEdge r options model draft mode pk edge 0 fun _ _ _ => pure ()
  | .nested edge _ children =>
    writeEdge r options model draft mode pk edge (Include.depthOf children)
      fun target nested nestedMode =>
        enclose options target children fun nestedPk =>
          writeAll r options target nested nestedMode nestedPk children

end

/-- Write the related rows that a draft supplies for a stored row, along the includes
of a query, and read the row again. -/
def persist (r : Registry) (options : PersistOptions) (model : Model) (draft : Draft)
    (mode : WriteMode) (includes : List Include) : RowRun σ Unit :=
  enclose options model includes fun pk => writeAll r options model draft mode pk includes

end Cascade

end RecordGraph
