import RecordGraph.Store.Engine

/-!
# Rows of the engine

Storing, connecting and re-reading a row. A row is connected according to the kind
of the association: the key of the other row is written into the row itself, or the
key of the row into the wanted target rows while all others that hold it lose it, or
the join table gets exactly the wanted pairs for the row.
-/

namespace RecordGraph.Linking

/-- The primary key of a row that is to be connected: it has to be stored. -/
def itemKey (pk : String) (item : Row) : Except StorageError Value :=
  match Value.present? (item.get? pk), item.isNew with
  | some key, false => .ok key
  | _, _ => .error (.database (.relatedNotPersisted item.model.name))

/-- The primary keys of rows that are to be connected. -/
def itemKeys (pk : String) (items : List Row) : Except StorageError (List Value) :=
  items.mapM (itemKey pk)

/-- The primary key of a record, which it has to have. -/
def sourceKey (model : Model) (data : Record) : Except StorageError Value := do
  let pk ← Loading.primaryKey model
  match Value.present? (data.get? pk) with
  | some key => .ok key
  | none => .error (.database (.notPersisted model.name))

/-- Whether a column of a record holds one of some values. -/
def holdsAny (data : Record) (column : String) (values : List Value) : Bool :=
  (data.get? column).any fun v => values.any v.same

/-- Write a key into the wanted rows and take it away from the others. -/
def pointTargets (pk column : String) (key : Value) (wanted : List Value) (t : Table) : Table :=
  { t with rows := t.rows.map fun row =>
      if holdsAny row.data pk wanted then { row with data := row.data.insert column key }
      else if row.has column key then { row with data := row.data.insert column .null }
      else row }

/-- Leave exactly the wanted pairs for a key in a join table. -/
def pairTargets (sourceColumn targetColumn : String) (key : Value) (wanted : List Value)
    (t : Table) : Table :=
  { t with rows := t.rows.filter (fun row => !row.has sourceColumn key) ++
      wanted.map fun other =>
        { data := Dict.ofList [(sourceColumn, key), (targetColumn, other)] } }

/-- Store the whole record of a row over the stored one. -/
def overwrite (model : Model) (validate : Bool) (key : Value) (data : Record) :
    Action Engine Record :=
  Engine.onTable model.name fun t => do
    match ← t.position? model key with
    | some index => t.updateAt model validate index data
    | none => .error .notFound

/-- Connect a row. The key column of a row that belongs to another is changed in the
row before anything is stored. -/
def connect (label : String) (linked : Linked Row) : RowAction Engine Unit := do
  let row ← RowAction.row
  let registry := (← RowAction.ofAction get).registry
  let a ← Loading.association row.model label
  let target ← Loading.model registry a.target
  let pk ← Loading.primaryKey target
  let column := registry.foreignKey row.model a
  let keys ← itemKeys pk linked.toList
  match a.kind with
  | .belongsTo =>
    RowAction.modifyRow (·.set column (keys.head?.getD .null))
    let data := (← RowAction.row).data
    let key ← sourceKey row.model data
    let _ ← RowAction.ofAction (overwrite row.model false key data)
  | .hasOne | .hasMany =>
    let key ← sourceKey row.model row.data
    RowAction.ofAction <| Engine.onTable target.name fun t =>
      .ok ((), pointTargets pk column key keys t)
  | .belongsToMany =>
    let key ← sourceKey row.model row.data
    match a.through with
    | none => throw (.unsupported (.joinTable label))
    | some through =>
      RowAction.ofAction <| Engine.onTable through fun t =>
        .ok ((), pairTargets column a.joinTargetColumn key keys t)

/-- Connect a row and file the other rows under the label. -/
def setAssociation (label : String) (linked : Linked Row) : RowAction Engine Unit := do
  connect label linked
  RowAction.modifyRow (·.file label linked)

/-- The primary key of a row that is stored. -/
def storedKey (row : Row) : Except StorageError Value := do
  let pk ← Loading.primaryKey row.model
  match Value.present? (row.get? pk) with
  | some key => .ok key
  | none => .error .notFound

/-- Store a row: a new one is added, another one overwritten. -/
def save (validate : Bool) : RowAction Engine Unit := do
  let row ← RowAction.row
  if row.isNew then
    let data ← RowAction.ofAction <| Engine.onTable row.model.name
      (·.insert row.model validate row.data)
    RowAction.modifyRow fun row => { row with data, isNew := false }
  else
    let data ← RowAction.ofAction <| Engine.onTable row.model.name fun t => do
      let key ← storedKey row
      match ← t.position? row.model key with
      | some index => t.updateAt row.model validate index row.data
      | none => .error .notFound
    RowAction.modifyRow fun row => { row with data }

/-- Read a row again, with exactly the related rows asked for. -/
def reload (request : Request.Reload) : RowAction Engine Unit := do
  let row ← RowAction.row
  let e ← RowAction.ofAction get
  let key ← storedKey row
  let pk ← Loading.primaryKey row.model
  match ((e.database.openTable row.model.name).liveWhere pk key).head? with
  | none => throw .notFound
  | some data =>
    let filed ← Loading.related e.registry e.database false row.model data [] request.includeList
    RowAction.modifyRow fun row => { row with data, related := filed.getD [] }

end RecordGraph.Linking

namespace RecordGraph

/-- The engine in memory as a backend. -/
instance : Backend Engine where
  build := Engine.build
  findAll := Engine.findAll
  findOne := Engine.findOne
  count := Engine.count
  aggregate := Engine.aggregate
  create := Engine.create
  bulkCreate := Engine.bulkCreate
  update := Engine.update
  upsert := Engine.upsert
  destroy := Engine.destroy
  restore := Engine.restore
  truncate model _ := Engine.truncate model
  dropTable model _ := Engine.dropTable model
  beginTransaction := Engine.beginTransaction
  commit := Engine.commit
  rollback := Engine.rollback
  save request := Linking.save request.validate
  setAssociation label linked _ := Linking.setAssociation label linked
  reload := Linking.reload

end RecordGraph
