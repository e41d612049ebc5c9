import RecordGraph.Schema.Registry
import RecordGraph.Store.Database
import RecordGraph.Store.Result
import RecordGraph.Store.Row

/-!
# Loading related rows

`associated` finds the live records at the other end of an association, in their
order of insertion. `related` loads a list of includes for one record: the records
of each that its filter accepts, with the includes below, shaped by its projection,
are filed under its label. A required include that loads nothing drops the record
itself; at the top this may be switched off.
-/

namespace RecordGraph.Loading

/-- The primary key column of a model, as a store reports its absence. -/
def primaryKey (model : Model) : Except StorageError String :=
  model.primaryKey.mapError fun e => .database (.schema e)

/-- A registered model, as a store reports its absence. -/
def model (r : Registry) (name : String) : Except StorageError Model :=
  match r.get? name with
  | some m => .ok m
  | none => .error (.unknownModel name)

/-- The association of a model that answers to a label, as a store reports its absence. -/
def association (m : Model) (label : String) : Except StorageError Association :=
  match m.association? label with
  | some a => .ok a
  | none => .error (.unsupported (.association m.name label))

/-- The live records whose primary key is one of those that the join table connects
with a source key. -/
def joined (d : Database) (through sourceColumn targetColumn pk : String) (sourceKey : Value)
    (target : Table) : List Record :=
  let links := ((d.table? through).map fun t => t.liveWhere sourceColumn sourceKey).getD []
  let keys := links.filterMap (·.get? targetColumn)
  (target.live.map (·.data)).filter fun record => (record.get? pk).any fun key => keys.any key.same

/-- The live records at the other end of an association of a record. -/
def associated (r : Registry) (d : Database) (source : Model) (a : Association) (target : Model)
    (data : Record) : Except StorageError (List Record) :=
  match d.table? target.name with
  | none => .ok []
  | some table => do
    let targetPk ← primaryKey target
    let column := r.foreignKey source a
    let sourcePk ← primaryKey source
    let sourceKey := Value.present? (data.get? sourcePk)
    match a.kind with
    | .belongsTo =>
      match Value.present? (data.get? column) with
      | some key => pure (table.liveWhere targetPk key)
      | none => pure []
    | .hasOne | .hasMany =>
      match sourceKey with
      | some key => pure (table.liveWhere column key)
      | none => pure []
    | .belongsToMany =>
      match sourceKey, a.through with
      | some key, some through =>
        pure (joined d through column a.joinTargetColumn targetPk key table)
      | _, _ => pure []

/-- The rows among some records that a filter accepts and that keep their own related
rows, shaped by a projection. -/
def rows (head : Request.IncludeHead) (target : Model)
    (below : Record → Except StorageError (Option (Dict (Linked Row)))) :
    List Record → Except StorageError (List Row)
  | [] => .ok []
  | record :: rest => do
    let accepted ← match head.filter with
      | some filter => Filter.accepts filter record
      | none => pure true
    if accepted then
      match ← below record with
      | some related =>
        let data ← Result.project record head.attributes
        let others ← rows head target below rest
        pure ({ model := target, data, related } :: others)
      | none => rows head target below rest
    else rows head target below rest

/-- The rows of one include for a record of a model, and whether they are a list. -/
def including (r : Registry) (d : Database) (source : Model) (data : Record)
    (head : Request.IncludeHead)
    (below : Model → Record → Except StorageError (Option (Dict (Linked Row)))) :
    Except StorageError (Bool × List Row) := do
  let a ← association source head.label
  let target ← model r head.model
  let records ← associated r d source a target data
  let loaded ← rows head target (below target) records
  pure (a.kind.isToMany, loaded)

mutual

/-- Load a list of includes for a record of a model and file them; none if a required
one loads nothing. -/
def related (r : Registry) (d : Database) (enforce : Bool) (source : Model) (data : Record)
    (filed : Dict (Linked Row)) :
    List Request.Include → Except StorageError (Option (Dict (Linked Row)))
  | [] => .ok (some filed)
  | i :: rest => do
    let (toMany, loaded) ← one r d source data i
    if enforce && i.head.required && loaded.isEmpty then pure none
    else
      related r d enforce source data (filed.insert i.head.label (.ofList toMany loaded)) rest

/-- Load one include for a record of a model. -/
def one (r : Registry) (d : Database) (source : Model) (data : Record) :
    Request.Include → Except StorageError (Bool × List Row)
  | .leaf head => including r d source data head fun _ _ => pure (some [])
  | .node head children =>
    including r d source data head fun target record =>
      related r d true target record [] children

end

/-- The live rows of a table that a request asks for, with their related rows. -/
def matching (r : Registry) (d : Database) (source : Model) (request : Request.Find) :
    List Record → Except StorageError (List (Record × Dict (Linked Row)))
  | [] => .ok []
  | record :: rest => do
    if ← Filter.accepts request.filter record then
      match ← related r d true source record [] request.includeList with
      | some filed =>
        let others ← matching r d source request rest
        pure ((record, filed) :: others)
      | none => matching r d source request rest
    else matching r d source request rest

/-- The rows that a request asks for: filtered and loaded, sorted, cut to the page, and
only then shaped. -/
def select (r : Registry) (d : Database) (source : Model) (request : Request.Find) :
    Except StorageError (List Row) :=
  if request.group.isSome then .error (.unsupported .grouping)
  else
    match d.table? source.name with
    | none => .ok []
    | some table => do
      let found ← matching r d source request (table.live.map (·.data))
      let keys ← Result.sortKeys (request.order.getD [])
      let sorted := Result.sort Prod.fst keys found
      (Result.page request.offset request.limit sorted).mapM fun (record, filed) => do
        let data ← Result.project record request.attributes
        pure { model := source, data, related := filed }

end RecordGraph.Loading
