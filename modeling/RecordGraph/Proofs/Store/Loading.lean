import RecordGraph.Proofs.Store.Action
import RecordGraph.Proofs.Store.Keys

/-!
# What a plain include loads

A plain include has no filter, no projection and no includes below it: it loads all
records at the other end of an association. A table that does not exist has no rows,
so these are read off the tables as a writer would open them.
-/

namespace RecordGraph

/-- An include of everything under a label. -/
def Request.plainInclude (model label : String) (required : Bool) : Request.Include :=
  .leaf { model, label, required }

namespace Loading

variable {r : Registry} {d : Database} {source target : Model} {a : Association}
variable {data : Record} {sourcePk targetPk : String}

/-- The records of a target table that a record is connected with. -/
def reached (r : Registry) (d : Database) (source : Model) (a : Association)
    (sourcePk targetPk : String) (data : Record) (t : Table) : List Record :=
  match a.kind with
  | .belongsTo =>
    match Value.present? (data.get? (r.foreignKey source a)) with
    | some key => t.liveWhere targetPk key
    | none => []
  | .hasOne | .hasMany =>
    match Value.present? (data.get? sourcePk) with
    | some key => t.liveWhere (r.foreignKey source a) key
    | none => []
  | .belongsToMany =>
    match Value.present? (data.get? sourcePk), a.through with
    | some key, some through =>
      t.liveRecords.filter (Linking.holdsAny · targetPk
        (((d.openTable through).liveWhere (r.foreignKey source a) key).filterMap
          (·.get? a.joinTargetColumn)))
    | _, _ => []

theorem reached_empty : reached r d source a sourcePk targetPk data {} = [] := by
  unfold reached
  split <;> split <;> rfl

/-- Targets that hold the key of their source are found by it, one or many alike. -/
theorem reached_owned {key : Value} {t : Table} (kind : a.kind.isOwnedByTarget = true)
    (present : Value.present? (data.get? sourcePk) = some key) :
    reached r d source a sourcePk targetPk data t = t.liveWhere (r.foreignKey source a) key := by
  unfold reached
  cases owned : a.kind with
  | hasOne | hasMany => simp only [present]
  | belongsTo | belongsToMany => simp [owned, AssociationKind.isOwnedByTarget] at kind

theorem joined_eq (through sourceColumn targetColumn pk : String) (key : Value) (t : Table) :
    joined d through sourceColumn targetColumn pk key t =
      t.liveRecords.filter (Linking.holdsAny · pk
        (((d.openTable through).liveWhere sourceColumn key).filterMap (·.get? targetColumn))) := by
  unfold joined Database.table? Database.openTable
  cases d.get? through <;> rfl

/-- The other end of an association is read off the target table as a writer opens it. -/
theorem associated_eq (targetKeyed : primaryKey target = .ok targetPk)
    (sourceKeyed : primaryKey source = .ok sourcePk) :
    associated r d source a target data =
      .ok (reached r d source a sourcePk targetPk data (d.openTable target.name)) := by
  unfold associated Database.table? Database.openTable
  cases d.get? target.name with
  | none => rw [Option.getD_none, reached_empty]
  | some t =>
      simp only [targetKeyed, sourceKeyed, Option.getD_some, reached, ok_bind, pure_eq_ok,
        joined_eq]
      cases a.kind with
      | belongsTo => cases Value.present? (data.get? (r.foreignKey source a)) <;> rfl
      | hasOne | hasMany => cases Value.present? (data.get? sourcePk) <;> rfl
      | belongsToMany =>
          cases Value.present? (data.get? sourcePk) <;> cases a.through <;> rfl

/-- A record as a row without related rows. -/
def plainRow (m : Model) (data : Record) : Row :=
  { model := m, data }

theorem rows_plain {model label : String} {required : Bool} (records : List Record) :
    rows { model, label, required } target (fun _ => .ok (some [])) records =
      .ok (records.map (plainRow target)) := by
  induction records with
  | nil => rfl
  | cons record rest ih =>
      simp only [rows, ih, ok_bind, pure_eq_ok, Result.project, if_true, List.map_cons, plainRow]

section Rows

variable {head : Request.IncludeHead}
variable {below : Record → Except StorageError (Option (Dict (Linked Row)))}
variable {record : Record} {rest records : List Record} {loaded : List Row}

/-- The first of some records is left out, or it is loaded in the shape of the projection,
with its own related rows. -/
theorem rows_cons_ok (done : rows head target below (record :: rest) = .ok loaded) :
    rows head target below rest = .ok loaded ∨
      ∃ row others, rows head target below rest = .ok others ∧ loaded = row :: others ∧
        row.model = target ∧ Result.project record head.attributes = .ok row.data ∧
        below record = .ok (some row.related) := by
  rw [rows] at done
  split at done
  -- Without a filter a record is accepted as one is that a filter accepts.
  all_goals
    obtain ⟨accepted, _, done⟩ := bind_eq_ok_iff.mp done
    cases accepted with
    | false => exact .inl done
    | true =>
        obtain ⟨filed, below, done⟩ := bind_eq_ok_iff.mp done
        cases filed with
        | none => exact .inl done
        | some related =>
            obtain ⟨data, shaped, done⟩ := bind_eq_ok_iff.mp done
            obtain ⟨others, later, done⟩ := bind_eq_ok_iff.mp done
            cases done
            exact .inr ⟨_, others, later, rfl, rfl, shaped, below⟩

/-- Each loaded row is one of the records, shaped by the projection, with its own related
rows. -/
theorem rows_ok (done : rows head target below records = .ok loaded) :
    ∀ row ∈ loaded, row.model = target ∧ ∃ record ∈ records,
      Result.project record head.attributes = .ok row.data ∧
      below record = .ok (some row.related) := by
  induction records generalizing loaded with
  | nil =>
      cases done
      simp
  | cons record rest ih =>
      intro row member
      have later : ∀ {others : List Row}, rows head target below rest = .ok others →
          row ∈ others → row.model = target ∧ ∃ other ∈ record :: rest,
            Result.project other head.attributes = .ok row.data ∧
            below other = .ok (some row.related) := by
        intro others done member
        obtain ⟨model, other, found, shaped⟩ := ih done row member
        exact ⟨model, other, List.mem_cons_of_mem _ found, shaped⟩
      obtain skipped | ⟨first, others, tail, rfl, model, shaped⟩ := rows_cons_ok done
      · exact later skipped member
      · rcases List.mem_cons.mp member with rfl | member
        · exact ⟨model, record, List.mem_cons_self, shaped⟩
        · exact later tail member

/-- Each row of an include is one of the records at the other end of its association, shaped by
the projection, with its own related rows. -/
theorem exists_ends_of_including
    {below : Model → Record → Except StorageError (Option (Dict (Linked Row)))} {toMany : Bool}
    (done : including r d source data head below = .ok (toMany, loaded)) :
    ∃ a target records, association source head.label = .ok a ∧ model r head.model = .ok target ∧
      associated r d source a target data = .ok records ∧ toMany = a.kind.isToMany ∧
      ∀ row ∈ loaded, row.model = target ∧ ∃ record ∈ records,
        Result.project record head.attributes = .ok row.data ∧
        below target record = .ok (some row.related) := by
  obtain ⟨a, association, done⟩ := bind_eq_ok_iff.mp done
  obtain ⟨target, registered, done⟩ := bind_eq_ok_iff.mp done
  obtain ⟨records, reached, done⟩ := bind_eq_ok_iff.mp done
  obtain ⟨shaped, kept, answered⟩ := bind_eq_ok_iff.mp done
  cases answered
  exact ⟨a, target, records, association, registered, reached, rfl, rows_ok kept⟩

end Rows

section Required

variable {includes : List Request.Include}

/-- What the first of some includes loads is filed, and loading goes on with the others. -/
theorem related_cons_some {enforce : Bool} {i : Request.Include} {filed all : Dict (Linked Row)}
    (done : related r d enforce source data filed (i :: includes) = .ok (some all)) :
    ∃ toMany loaded, one r d source data i = .ok (toMany, loaded) ∧
      related r d enforce source data (filed.insert i.head.label (.ofList toMany loaded)) includes =
        .ok (some all) := by
  rw [related] at done
  obtain ⟨⟨toMany, loaded⟩, answer, done⟩ := bind_eq_ok_iff.mp done
  dsimp only at done
  split at done
  · cases done
  · exact ⟨toMany, loaded, answer, done⟩

/-- Where no include is required, it makes no difference whether this is enforced. -/
theorem related_optional {enforce : Bool}
    (optional : ∀ i ∈ includes, i.head.required = false) (filed : Dict (Linked Row)) :
    related r d enforce source data filed includes = related r d false source data filed includes
    := by
  induction includes generalizing filed with
  | nil => rw [related, related]
  | cons i rest ih =>
      obtain ⟨here, later⟩ := List.forall_mem_cons.mp optional
      simp only [related, here, Bool.and_false, Bool.false_and, ih later]

/-- Where it is not enforced that includes are required, no record is dropped. -/
theorem related_ne_none (includes : List Request.Include) (filed : Dict (Linked Row)) :
    related r d false source data filed includes ≠ .ok none := by
  induction includes generalizing filed with
  | nil => simp [related]
  | cons i rest ih =>
      rw [related]
      cases one r d source data i with
      | error err => nofun
      | ok loaded => exact ih _

end Required

/-- A plain include files all records at the other end of its association, unless it is
required and this is enforced. -/
theorem related_plain {label : String} {enforce required : Bool}
    (optional : (enforce && required) = false)
    (association : source.association? label = some a)
    (registered : r.get? a.target = some target)
    (targetKeyed : primaryKey target = .ok targetPk)
    (sourceKeyed : primaryKey source = .ok sourcePk) :
    related r d enforce source data [] [Request.plainInclude a.target label required] =
      .ok (some [(label, .ofList a.kind.isToMany
        ((reached r d source a sourcePk targetPk data (d.openTable target.name)).map
          (plainRow target)))]) := by
  simp only [related, Request.plainInclude, one, including, Loading.association, association,
    Loading.model, registered, associated_eq targetKeyed sourceKeyed, rows_plain, ok_bind,
    pure_eq_ok, Request.Include.head, optional, Bool.false_and]
  rfl

end Loading

namespace Linking

variable {e : Engine} {row : Row} {a : Association} {target : Model} {label : String}
variable {sourcePk targetPk : String} {key : Value} {data : Record}

theorem sourceKey_ok_iff {m : Model} (keyed : Loading.primaryKey m = .ok sourcePk) :
    sourceKey m data = .ok key ↔ Value.present? (data.get? sourcePk) = some key := by
  simp only [sourceKey, keyed, ok_bind]
  cases Value.present? (data.get? sourcePk) <;> simp

theorem storedKey_ok_iff (keyed : Loading.primaryKey row.model = .ok sourcePk) :
    storedKey row = .ok key ↔ Value.present? (row.get? sourcePk) = some key := by
  simp only [storedKey, keyed, ok_bind]
  cases Value.present? (row.get? sourcePk) <;> simp

/-- Reading a row again with a plain include answers the stored record of its key, with
all records at the other end of the association filed under the label. -/
theorem reload_plain (required : Bool) (keyed : Loading.primaryKey row.model = .ok sourcePk)
    (sourceKey : Value.present? (row.get? sourcePk) = some key)
    (found : ((e.database.openTable row.model.name).liveWhere sourcePk key).head? = some data)
    (association : row.model.association? label = some a)
    (registered : e.registry.get? a.target = some target)
    (targetKeyed : Loading.primaryKey target = .ok targetPk) :
    reload { includes := some [Request.plainInclude a.target label required] } row e =
      ((.ok (), { row with
        data
        related := [(label, .ofList a.kind.isToMany
          ((Loading.reached e.registry e.database row.model a sourcePk targetPk data
            (e.database.openTable target.name)).map (Loading.plainRow target)))] }), e) := by
  rw [reload, RowAction.bind_run_ok (RowAction.row_run e), RowAction.bind_run_ok rfl,
    (storedKey_ok_iff keyed).mpr sourceKey, RowAction.bind_run_ok (RowAction.lift_run _ e),
    keyed, RowAction.bind_run_ok (RowAction.lift_run _ e)]
  simp only [found]
  rw [Request.Reload.includeList, Option.getD_some,
    Loading.related_plain rfl association registered targetKeyed keyed,
    RowAction.bind_run_ok (RowAction.lift_run _ e)]
  rfl

/-- A row that could be read again is the first live one of its key, with its related rows. -/
theorem reload_ok {request : Request.Reload} {row row' : Row} {e e' : Engine}
    (h : reload request row e = ((.ok (), row'), e')) :
    ∃ data filed, data ∈ (e.database.openTable row.model.name).liveRecords ∧
      (∃ pk key, Loading.primaryKey row.model = .ok pk ∧ Value.present? (row.get? pk) = some key ∧
        holdsAny data pk [key] = true) ∧
      Loading.related e.registry e.database false row.model data [] request.includeList =
        .ok filed ∧ row' = { row with data, related := filed.getD [] } ∧ e' = e := by
  rw [reload, RowAction.bind_run_ok (RowAction.row_run e), RowAction.bind_run_ok rfl] at h
  obtain ⟨key, stored, h⟩ := RowAction.lift_bind_ok_iff.mp h
  obtain ⟨pk, keyed, h⟩ := RowAction.lift_bind_ok_iff.mp h
  cases found : ((e.database.openTable row.model.name).liveWhere pk key).head? with
  | none =>
      rw [found] at h
      cases h
  | some data =>
      rw [found] at h
      obtain ⟨filed, loaded, h⟩ := RowAction.lift_bind_ok_iff.mp h
      cases h
      have member := List.mem_of_mem_head? found
      rw [Table.liveWhere_eq] at member
      obtain ⟨live, holds⟩ := List.mem_filter.mp member
      exact ⟨data, filed, live, ⟨pk, key, keyed, (storedKey_ok_iff keyed).mp stored, holds⟩, loaded,
        rfl, rfl⟩

end Linking

end RecordGraph
