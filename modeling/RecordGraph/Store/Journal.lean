import RecordGraph.Store.Backend

/-!
# A backend that keeps a journal

A journal stands in front of a backend. It writes down every operation that is asked
of the backend, in order and with everything it is given, and then passes it on.
Operations can be made to fail: a fault names an operation, which of its calls is
meant, counted from one, and the error. Such a call is written down, too, but the
backend does not see it.
-/

namespace RecordGraph

/-- The operations of a backend. -/
inductive Operation where
  | build
  | findAll
  | findOne
  | count
  | aggregate
  | create
  | bulkCreate
  | update
  | upsert
  | destroy
  | restore
  | truncate
  | dropTable
  | beginTransaction
  | commit
  | rollback
  | save
  | setAssociation
  | reload
deriving DecidableEq, Repr

namespace Operation

/-- Every operation. -/
def all : List Operation :=
  [.build, .findAll, .findOne, .count, .aggregate, .create, .bulkCreate, .update, .upsert,
    .destroy, .restore, .truncate, .dropTable, .beginTransaction, .commit, .rollback, .save,
    .setAssociation, .reload]

/-- The word for an operation. -/
def word : Operation → String
  | .build => "build"
  | .findAll => "find_all"
  | .findOne => "find_one"
  | .count => "count"
  | .aggregate => "aggregate"
  | .create => "create"
  | .bulkCreate => "bulk_create"
  | .update => "update"
  | .upsert => "upsert"
  | .destroy => "destroy"
  | .restore => "restore"
  | .truncate => "truncate"
  | .dropTable => "drop_table"
  | .beginTransaction => "begin"
  | .commit => "commit"
  | .rollback => "rollback"
  | .save => "save"
  | .setAssociation => "set_association"
  | .reload => "reload"

/-- The operation of a word. -/
def ofWord? (s : String) : Option Operation :=
  all.find? (·.word == s)

end Operation

/-- An operation that was asked of a backend, with what it was given. For operations
on a row the record is that of the row before. -/
inductive Call where
  | build (model : String) (data : Record) (isNew : Bool)
  | findAll (model : String) (request : Request.Find)
  | findOne (model : String) (request : Request.Find)
  | count (model : String) (request : Request.Find)
  | aggregate (model column : String) (function : Request.Aggregate) (request : Request.Find)
  | create (model : String) (data : Record) (request : Request.Write)
  | bulkCreate (model : String) (rows : List Record) (request : Request.Write)
  | update (model : String) (values : Record) (request : Request.Update)
  | upsert (model : String) (values : Record) (request : Request.Write)
  | destroy (model : String) (request : Request.Destroy)
  | restore (model : String) (request : Request.Destroy)
  | truncate (model : String) (request : Request.Table)
  | dropTable (model : String) (request : Request.Table)
  | beginTransaction
  | commit (transaction : Nat)
  | rollback (transaction : Nat)
  | save (model : String) (data : Record) (isNew : Bool) (request : Request.Write)
  | setAssociation (model : String) (data : Record) (label : String) (linked : Linked Record)
      (transaction : Option Nat)
  | reload (model : String) (data : Record) (request : Request.Reload)

namespace Call

/-- The operation that was asked for. -/
def operation : Call → Operation
  | .build .. => .build
  | .findAll .. => .findAll
  | .findOne .. => .findOne
  | .count .. => .count
  | .aggregate .. => .aggregate
  | .create .. => .create
  | .bulkCreate .. => .bulkCreate
  | .update .. => .update
  | .upsert .. => .upsert
  | .destroy .. => .destroy
  | .restore .. => .restore
  | .truncate .. => .truncate
  | .dropTable .. => .dropTable
  | .beginTransaction => .beginTransaction
  | .commit .. => .commit
  | .rollback .. => .rollback
  | .save .. => .save
  | .setAssociation .. => .setAssociation
  | .reload .. => .reload

/-- The transaction that an operation travels in. -/
def transaction? : Call → Option Nat
  | .build .. | .beginTransaction => none
  | .findAll _ r | .findOne _ r | .count _ r | .aggregate _ _ _ r => r.transaction
  | .create _ _ r | .bulkCreate _ _ r | .upsert _ _ r | .save _ _ _ r => r.transaction
  | .update _ _ r => r.transaction
  | .destroy _ r | .restore _ r => r.transaction
  | .truncate _ r | .dropTable _ r => r.transaction
  | .commit transaction | .rollback transaction => some transaction
  | .setAssociation _ _ _ _ transaction => transaction
  | .reload _ _ r => r.transaction

/-- What an operation was given, as fields. -/
def fields : Call → List (String × Value)
  | .build m data isNew => [("model", .str m), ("data", .obj data), ("new", .bool isNew)]
  | .findAll m r | .findOne m r | .count m r => [("model", .str m), ("options", r.toValue)]
  | .aggregate m column function r =>
    [("model", .str m), ("attribute", .str column), ("function", .str function.word),
      ("options", r.toValue)]
  | .create m data r => [("model", .str m), ("data", .obj data), ("options", r.toValue)]
  | .bulkCreate m rows r =>
    [("model", .str m), ("rows", .arr (rows.map .obj)), ("options", r.toValue)]
  | .update m values r => [("model", .str m), ("values", .obj values), ("options", r.toValue)]
  | .upsert m values r => [("model", .str m), ("values", .obj values), ("options", r.toValue)]
  | .destroy m r | .restore m r => [("model", .str m), ("options", r.toValue)]
  | .truncate m r | .dropTable m r => [("model", .str m), ("options", r.toValue)]
  | .beginTransaction | .commit _ | .rollback _ => []
  | .save m data isNew r =>
    [("model", .str m), ("data", .obj data), ("new", .bool isNew), ("options", r.toValue)]
  | .setAssociation m data label linked _ =>
    [("model", .str m), ("data", .obj data), ("alias", .str label),
      ("target", linked.toValue .obj)]
  | .reload m data r => [("model", .str m), ("data", .obj data), ("options", r.toValue)]

/-- The written form of a call: the operation, its transaction, and what it was given. -/
def toValue (c : Call) : Value :=
  .obj <| Dict.ofList <|
    [("call", .str c.operation.word),
      ("tx", (c.transaction?.map Request.natValue).getD .null)] ++ c.fields

end Call

/-- A call that is made to fail. -/
structure Fault where
  operation : Operation
  /-- Which call of the operation, counted from one. -/
  nth : Nat
  error : StorageError

/-- A backend with the calls that were made to it and the faults to come. -/
structure Journal (σ : Type) where
  inner : σ
  calls : List Call := []
  faults : List Fault := []

namespace Journal

variable {σ α : Type}

/-- The fault that the next call of an operation meets, if there is one. -/
def fault? (j : Journal σ) (operation : Operation) : Option Fault :=
  let earlier := j.calls.countP (·.operation == operation)
  j.faults.find? fun f => f.operation == operation && f.nth == earlier + 1

/-- The journal with one more call. -/
def write (j : Journal σ) (call : Call) : Journal σ :=
  { j with calls := j.calls ++ [call] }

/-- Write a call down and pass it on, unless it meets a fault. -/
def observe (call : Call) (action : Action σ α) : Action (Journal σ) α := fun j =>
  match j.fault? call.operation with
  | some fault => (.error fault.error, j.write call)
  | none =>
    let (result, inner) := action j.inner
    (result, { j.write call with inner })

/-- Write a call on a row down and pass it on, unless it meets a fault. -/
def observeRow (call : Row → Call) (action : RowAction σ α) : RowAction (Journal σ) α :=
  fun row j =>
    match j.fault? (call row).operation with
    | some fault => ((.error fault.error, row), j.write (call row))
    | none =>
      let (result, inner) := action row j.inner
      (result, { j.write (call row) with inner })

instance [Backend σ] : Backend (Journal σ) where
  build m data isNew := observe (.build m.name data isNew) (Backend.build m data isNew)
  findAll m r := observe (.findAll m.name r) (Backend.findAll m r)
  findOne m r := observe (.findOne m.name r) (Backend.findOne m r)
  count m r := observe (.count m.name r) (Backend.count m r)
  aggregate m column function r :=
    observe (.aggregate m.name column function r) (Backend.aggregate m column function r)
  create m data r := observe (.create m.name data r) (Backend.create m data r)
  bulkCreate m rows r := observe (.bulkCreate m.name rows r) (Backend.bulkCreate m rows r)
  update m values r := observe (.update m.name values r) (Backend.update m values r)
  upsert m values r := observe (.upsert m.name values r) (Backend.upsert m values r)
  destroy m r := observe (.destroy m.name r) (Backend.destroy m r)
  restore m r := observe (.restore m.name r) (Backend.restore m r)
  truncate m r := observe (.truncate m.name r) (Backend.truncate m r)
  dropTable m r := observe (.dropTable m.name r) (Backend.dropTable m r)
  beginTransaction := observe .beginTransaction Backend.beginTransaction
  commit t := observe (.commit t) (Backend.commit t)
  rollback t := observe (.rollback t) (Backend.rollback t)
  save r := observeRow (fun row => .save row.model.name row.data row.isNew r) (Backend.save r)
  setAssociation label linked t :=
    observeRow
      (fun row => .setAssociation row.model.name row.data label (linked.map (·.data)) t)
      (Backend.setAssociation label linked t)
  reload r := observeRow (fun row => .reload row.model.name row.data r) (Backend.reload r)

end Journal

end RecordGraph
