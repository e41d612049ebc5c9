import RecordGraph.Proofs.Data.Entries
import RecordGraph.Proofs.Store.Dependence
import RecordGraph.Proofs.Store.Lockstep
import RecordGraph.Proofs.Store.Selecting

/-!
# Hidden rows are not read

Whether a row is hidden is looked at in many places: at the top of a request, at the other
end of an association of each kind, and in a join table. Two properties say that none of
them is forgotten. Each row that is read, and each row loaded below it, is made from a row
that is not hidden (`Row.FromLive`); and what is read does not change with the hidden rows,
so that they do not count in a number or an aggregate, nor make a request fail.
-/

namespace RecordGraph

/-- A row is made from a stored row that is not hidden, and so are the rows below it. -/
inductive Row.FromLive (d : Database) : Row → Prop where
  | intro {row : Row} {stored : StoredRow} {shape : Option (List Request.Projection)}
      (stays : stored ∈ (d.openTable row.model.name).rows) (shown : stored.hidden = false)
      (shaped : Result.project stored.data shape = .ok row.data)
      (below : ∀ filed ∈ row.related, ∀ item ∈ filed.2.toList, FromLive d item) : FromLive d row

/-- The rows filed under labels are all made from rows that are not hidden. -/
def FiledLive (d : Database) (filed : Dict (Linked Row)) : Prop :=
  ∀ entry ∈ filed, ∀ item ∈ entry.2.toList, item.FromLive d

/-- Two databases have the same tables, and each has the same rows that are not hidden. -/
def Database.SameLive (d d' : Database) : Prop :=
  ∀ name, (d.table? name).map Table.live = (d'.table? name).map Table.live

/-- The database without its hidden rows. -/
def Database.withoutHidden (d : Database) : Database :=
  d.mapValues fun t => { t with rows := t.live }

theorem Database.sameLive_withoutHidden (d : Database) : d.SameLive d.withoutHidden := by
  intro name
  rw [table?, table?, withoutHidden, Dict.get?_mapValues, Option.map_map]
  congr 1
  funext t
  simp [Table.live]

theorem Linked.mem_of_mem_ofList {α : Type} {toMany : Bool} {items : List α} {item : α}
    (member : item ∈ (ofList toMany items).toList) : item ∈ items := by
  cases toMany with
  | true => exact member
  | false =>
      rw [toList_ofList_one] at member
      exact List.mem_of_mem_take member

namespace Loading

variable {r : Registry} {d d' : Database} {source target : Model} {a : Association}
variable {data : Record} {enforce : Bool}

/-! ### Where the rows that are read come from -/

/-- A record that is not hidden, in some shape and with such rows below it. -/
theorem fromLive_of_mem {row : Row} {record : Record} {shape : Option (List Request.Projection)}
    (live : record ∈ (d.openTable row.model.name).liveRecords)
    (shaped : Result.project record shape = .ok row.data) (below : FiledLive d row.related) :
    row.FromLive d := by
  obtain ⟨stored, stays, shown, rfl⟩ := Table.mem_liveRecords_iff.mp live
  exact .intro stays shown shaped below

theorem mem_liveRecords_of_mem_liveWhere {t : Table} {key : String} {value : Value}
    {record : Record} (found : record ∈ t.liveWhere key value) : record ∈ t.liveRecords := by
  rw [Table.liveWhere_eq] at found
  exact (List.mem_filter.mp found).1

/-- Whatever the kind of an association, the records at its other end are not hidden. -/
theorem associated_live {records : List Record}
    (done : associated r d source a target data = .ok records) :
    ∀ record ∈ records, record ∈ (d.openTable target.name).liveRecords := by
  intro record member
  cases exists? : d.table? target.name with
  | none =>
      simp only [associated, exists?, Except.ok.injEq] at done
      simp [← done] at member
  | some t =>
      have opened : d.openTable target.name = t := by
        rw [Database.openTable, ← Database.table?, exists?, Option.getD_some]
      simp only [associated, exists?] at done
      obtain ⟨targetPk, _, done⟩ := bind_eq_ok_iff.mp done
      obtain ⟨sourcePk, _, done⟩ := bind_eq_ok_iff.mp done
      rw [opened]
      cases kind : a.kind <;> simp only [kind] at done <;> split at done <;> cases done
      all_goals first
        | exact mem_liveRecords_of_mem_liveWhere member
        | exact (List.mem_filter.mp member).1
        | cases member

/-- The rows of an include, if those below each of them are not hidden. -/
theorem including_live {head : Request.IncludeHead}
    {below : Model → Record → Except StorageError (Option (Dict (Linked Row)))}
    (deeper : ∀ m record filed, below m record = .ok (some filed) → FiledLive d filed)
    {toMany : Bool} {loaded : List Row}
    (done : including r d source data head below = .ok (toMany, loaded)) :
    ∀ row ∈ loaded, row.FromLive d := by
  intro row member
  obtain ⟨_, _, records, _, _, reached, _, made⟩ := exists_ends_of_including done
  obtain ⟨rfl, record, among, data, filed⟩ := made row member
  exact fromLive_of_mem (associated_live reached record among) data (deeper _ _ _ filed)

theorem filedLive_nil : FiledLive d [] :=
  fun _ member => nomatch member

mutual

/-- Related rows are made from rows that are not hidden, at every depth. -/
theorem related_live : ∀ {includes : List Request.Include} {source : Model} {data : Record}
    {enforce : Bool} {filed out : Dict (Linked Row)}, FiledLive d filed →
    related r d enforce source data filed includes = .ok (some out) → FiledLive d out
  | [], _, _, _, _, _, old, done => by
      cases done
      exact old
  | i :: rest, _, _, _, _, _, old, done => by
      obtain ⟨toMany, loaded, loads, done⟩ := related_cons_some done
      have new : ∀ item ∈ (Linked.ofList toMany loaded).toList, item.FromLive d :=
        fun item member => one_live loads item (Linked.mem_of_mem_ofList member)
      exact related_live (Dict.forall_mem_insert old new) done

theorem one_live : ∀ {i : Request.Include} {source : Model} {data : Record} {toMany : Bool}
    {loaded : List Row}, one r d source data i = .ok (toMany, loaded) →
    ∀ row ∈ loaded, row.FromLive d
  | .leaf head, _, _, _, _, done => by
      refine including_live (fun _ _ filed answered => ?_) done
      cases answered
      exact filedLive_nil
  | .node head children, _, _, _, _, done =>
      including_live (fun _ _ _ answered => related_live filedLive_nil answered) done

end

/-- The rows that a request asks for are made from rows that are not hidden. -/
theorem select_live {request : Request.Find} {rows : List Row}
    (done : select r d source request = .ok rows) : ∀ row ∈ rows, row.FromLive d := by
  intro row member
  obtain ⟨record, live, picked⟩ := exists_of_mem_select done member
  exact fromLive_of_mem (picked.model ▸ live) picked.shaped
    (related_live filedLive_nil picked.loaded)

/-! ### What is read does not depend on hidden rows -/

theorem joined_alike (same : d.SameLive d') (through sourceColumn targetColumn pk : String)
    (key : Value) {t t' : Table} (live : t.live = t'.live) :
    joined d through sourceColumn targetColumn pk key t =
      joined d' through sourceColumn targetColumn pk key t' := by
  have links : ((d.table? through).map fun t => t.liveWhere sourceColumn key) =
      (d'.table? through).map fun t => t.liveWhere sourceColumn key := by
    have mapped := congrArg (Option.map fun rows : List StoredRow =>
      (rows.filter (·.has sourceColumn key)).map (·.data)) (same through)
    rwa [Option.map_map, Option.map_map] at mapped
  rw [joined, joined, links, live]

/-- A table that is opened has the same rows that are not hidden. -/
theorem openTable_alike (same : d.SameLive d') (name : String) :
    (d.openTable name).live = (d'.openTable name).live := by
  have opened : ∀ d : Database, (d.openTable name).live =
      ((d.table? name).map Table.live).getD [] := by
    intro d
    rw [Database.openTable, ← Database.table?]
    cases d.table? name <;> rfl
  rw [opened, opened, same name]

theorem liveWhere_alike (same : d.SameLive d') (name key : String) (value : Value) :
    (d.openTable name).liveWhere key value = (d'.openTable name).liveWhere key value := by
  rw [Table.liveWhere, Table.liveWhere, openTable_alike same]

/-- Whatever the kind of an association, hidden rows at its other end or in its join table
make no difference. -/
theorem associated_alike (same : d.SameLive d') :
    associated r d source a target data = associated r d' source a target data := by
  have tables := same target.name
  rw [associated, associated]
  cases here : d.table? target.name with
  | none =>
      cases there : d'.table? target.name with
      | none => rfl
      | some t' => simp [here, there] at tables
  | some t =>
      cases there : d'.table? target.name with
      | none => simp [here, there] at tables
      | some t' =>
          have live : t.live = t'.live := by simpa [here, there] using tables
          simp only [Table.liveWhere, live, joined_alike same _ _ _ _ _ live]

/-- At every depth hidden rows make no difference. -/
theorem related_alike (same : d.SameLive d') (includes : List Request.Include) (source : Model)
    (data : Record) (enforce : Bool) (filed : Dict (Linked Row)) :
    related r d enforce source data filed includes =
      related r d' enforce source data filed includes := by
  have ends : ∀ source data head, SameEnds r d' d source data head :=
    fun _ _ _ _ _ _ _ => associated_alike same
  exact related_same includes source data enforce filed
    (sameAlong_of_ends ends includes source data)

theorem select_alike (same : d.SameLive d') (request : Request.Find) :
    select r d source request = select r d' source request :=
  select_congr (same source.name) fun record =>
    related_alike same request.includeList source record true []

end Loading

namespace Engine

/-- Two engines know the same models and have the same rows that are not hidden. -/
structure SameLive (e f : Engine) : Prop where
  registry : f.registry = e.registry
  tables : e.database.SameLive f.database

section Alike

variable (m : Model) (request : Request.Find)

theorem lockstep_findAll_live : Lockstep SameLive (findAll m request) (findAll m request) := by
  intro e f same
  refine ⟨?_, by simpa only [findAll_run] using same⟩
  simp only [findAll_run, same.registry, Loading.select_alike same.tables]

theorem lockstep_findOne_live : Lockstep SameLive (findOne m request) (findOne m request) :=
  (lockstep_findAll_live m _).bind fun rows => lockstep_pure rows.head?

theorem lockstep_count_live : Lockstep SameLive (count m request) (count m request) :=
  (lockstep_findAll_live m _).bind fun rows => lockstep_pure rows.length

theorem lockstep_aggregate_live (column : String) (function : Request.Aggregate) :
    Lockstep SameLive (aggregate m column function request)
      (aggregate m column function request) :=
  (lockstep_findAll_live m _).bind fun rows =>
    lockstep_lift (summarize function (rows.filterMap (·.get? column)))

theorem lockstep_reload_live (request : Request.Reload) :
    RowLockstep SameLive (Linking.reload request) (Linking.reload request) := by
  intro r e f same
  rw [Linking.reload, RowAction.bind_run_ok (RowAction.row_run e),
    RowAction.bind_run_ok (RowAction.row_run f),
    RowAction.bind_run_ok (RowAction.ofAction_run get e),
    RowAction.bind_run_ok (RowAction.ofAction_run get f)]
  refine ((rowLockstep_lift _).bind fun key => ?_) r e f same
  refine (rowLockstep_lift _).bind fun pk => ?_
  simp only [same.registry, Loading.liveWhere_alike same.tables, Loading.related_alike same.tables]
  split
  · exact rowLockstep_throw _
  · exact (rowLockstep_lift _).bind fun _ => rowLockstep_modifyRow _

end Alike

/-- Whatever is read is made from rows that are not hidden. -/
structure ReadsLive (e : Engine) : Prop where
  findAll {m : Model} {request : Request.Find} {rows : List Row}
    (done : (findAll m request e).1 = .ok rows) : ∀ row ∈ rows, row.FromLive e.database
  findOne {m : Model} {request : Request.Find} {row : Row}
    (done : (findOne m request e).1 = .ok (some row)) : row.FromLive e.database
  count {m : Model} {request : Request.Find} {n : Nat}
    (done : (count m request e).1 = .ok n) :
    ∃ rows : List Row, (∀ row ∈ rows, row.FromLive e.database) ∧ n = rows.length
  aggregate {m : Model} {column : String} {function : Request.Aggregate} {request : Request.Find}
    {v : Value} (done : (aggregate m column function request e).1 = .ok v) :
    ∃ rows : List Row, (∀ row ∈ rows, row.FromLive e.database) ∧
      v = Result.aggregate function (rows.filterMap (·.get? column))
  reload {request : Request.Reload} {row row' : Row}
    (done : (Linking.reload request row e).1 = (.ok (), row')) : row'.FromLive e.database

/-- Whatever is read from two engines is the same, and so is the failure to read it. -/
structure ReadsAlike (e f : Engine) : Prop where
  findAll (m : Model) (request : Request.Find) : (findAll m request f).1 = (findAll m request e).1
  findOne (m : Model) (request : Request.Find) : (findOne m request f).1 = (findOne m request e).1
  count (m : Model) (request : Request.Find) : (count m request f).1 = (count m request e).1
  aggregate (m : Model) (column : String) (function : Request.Aggregate) (request : Request.Find) :
    (aggregate m column function request f).1 = (aggregate m column function request e).1
  reload (request : Request.Reload) (row : Row) :
    (Linking.reload request row f).1 = (Linking.reload request row e).1

/-- One row, a number of rows and an aggregate are made from all rows that are found. -/
theorem readsAlike_of_findAll {e f : Engine}
    (found : ∀ m request, (findAll m request f).1 = (findAll m request e).1)
    (again : ∀ request row, (Linking.reload request row f).1 = (Linking.reload request row e).1) :
    e.ReadsAlike f := by
  have made {α : Type} (make : List Row → α) (m : Model) (request : Request.Find) :
      ((findAll m request >>= fun rows => pure (make rows) : Action Engine α) f).1 =
        ((findAll m request >>= fun rows => pure (make rows) : Action Engine α) e).1 := by
    rw [Action.bind_run, Action.bind_run, found m request]
    cases (findAll m request e).1 <;> simp only [Action.pure_run]
  exact {
    findAll := found
    findOne := fun m request => made List.head? m { request with limit := some 1 }
    count := fun m request => made List.length m { request with attributes := none }
    aggregate := fun m column function request => by
      rw [aggregate, Action.bind_run, Action.bind_run, found m]
      cases (findAll m { request with attributes := none } e).1 <;> simp only [Action.lift_run]
    reload := again }

theorem findAll_live {e : Engine} {m : Model} {request : Request.Find} {rows : List Row}
    (done : (findAll m request e).1 = .ok rows) : ∀ row ∈ rows, row.FromLive e.database := by
  rw [findAll_run] at done
  obtain ⟨_, _, done⟩ := bind_eq_ok_iff.mp done
  exact Loading.select_live done

/-- What is computed from the rows of a request is computed from rows that are not hidden. -/
theorem findAll_map_live {α : Type} {e : Engine} {m : Model} {request : Request.Find}
    {f : List Row → α} {a : α}
    (done : ((Engine.findAll m request >>= fun rows => pure (f rows) : Action Engine α) e).1 =
      .ok a) : ∃ rows : List Row, (∀ row ∈ rows, row.FromLive e.database) ∧ a = f rows := by
  obtain ⟨rows, found, made⟩ := Action.bind_pure_ok done
  exact ⟨rows, findAll_live found, made⟩

/-- A summary that is had is the aggregate. -/
theorem summarize_ok {function : Request.Aggregate} {values : List Value} {v : Value}
    (done : summarize function values = .ok v) : v = Result.aggregate function values := by
  unfold summarize at done
  split at done
  · cases done
  · exact (Except.ok.inj done).symm

/-- An aggregate is one of values in rows that are not hidden. -/
theorem aggregate_live {e : Engine} {m : Model} {column : String} {function : Request.Aggregate}
    {request : Request.Find} {v : Value}
    (done : (aggregate m column function request e).1 = .ok v) :
    ∃ rows : List Row, (∀ row ∈ rows, row.FromLive e.database) ∧
      v = Result.aggregate function (rows.filterMap (·.get? column)) := by
  obtain ⟨rows, _, found, summed⟩ := Action.bind_ok (Prod.ext done rfl)
  exact ⟨rows, findAll_live (congrArg Prod.fst found), summarize_ok (congrArg Prod.fst summed)⟩

theorem reload_live {e : Engine} {request : Request.Reload} {row row' : Row}
    (done : (Linking.reload request row e).1 = (.ok (), row')) : row'.FromLive e.database := by
  obtain ⟨data, filed, live, -, loads, rfl, -⟩ := Linking.reload_ok (Prod.ext done rfl)
  have whole : Result.project data none = .ok data := rfl
  refine Loading.fromLive_of_mem live whole ?_
  cases filed with
  | none => exact Loading.filedLive_nil
  | some filed => exact Loading.related_live Loading.filedLive_nil loads

/-- Hidden rows are not read. Every row that is found or read again, and every row loaded
below it, is made from a row that is not hidden, and so are all rows that a number or an
aggregate is computed from. Nor do hidden rows matter to any of these in another way: where
only they differ, all requests answer the same or fail alike. -/
theorem reads_live {e f : Engine} (same : e.SameLive f) : e.ReadsLive ∧ e.ReadsAlike f := by
  constructor
  · exact {
      findAll := findAll_live
      findOne := fun done => by
        obtain ⟨rows, live, first⟩ := findAll_map_live done
        exact live _ (List.mem_of_head? first.symm)
      count := findAll_map_live
      aggregate := aggregate_live
      reload := reload_live }
  · exact {
      findAll := fun m request => (lockstep_findAll_live m request e f same).1.symm
      findOne := fun m request => (lockstep_findOne_live m request e f same).1.symm
      count := fun m request => (lockstep_count_live m request e f same).1.symm
      aggregate := fun m column function request =>
        (lockstep_aggregate_live m request column function e f same).1.symm
      reload := fun request row => (lockstep_reload_live request row e f same).1.symm }

section Archive

/-- An author with books. -/
def novelist : Model :=
  { name := "Author", attributes := [.identity "id"],
    associations := [{ key := "books", kind := .hasMany, target := "Book" }] }

/-- A book that is hidden when it is destroyed. -/
def novel : Model :=
  { name := "Book", attributes := [.identity "id"], paranoid := true }

/-- An author with two books, the first of which is hidden. -/
def archive : Engine :=
  { registry := [("Author", novelist), ("Book", novel)],
    database := [
      ("Author", { rows := [{ data := [("id", .ofInt 1)] }] }),
      ("Book", { rows := [
        { data := [("AuthorId", .ofInt 1), ("id", .ofInt 1)], hidden := true },
        { data := [("AuthorId", .ofInt 1), ("id", .ofInt 2)] }] })] }

/-- The author is read again with the second book only, and as many rows are counted as
without the first one. -/
theorem reads_live_archive :
    let cleared := { archive with database := archive.database.withoutHidden }
    let books := Request.plainInclude "Book" "books" false
    ∃ again, (Linking.reload { includes := some [books] }
        { model := novelist, data := [("id", .ofInt 1)] } archive).1 = (.ok (), again) ∧
      again.related = [("books", .many [Loading.plainRow novel
        [("AuthorId", .ofInt 1), ("id", .ofInt 2)]])] ∧
      again.FromLive archive.database ∧
      ∀ m request, (count m request cleared).1 = (count m request archive).1 := by
  intro cleared books
  have same : archive.SameLive cleared := ⟨rfl, archive.database.sameLive_withoutHidden⟩
  obtain ⟨live, alike⟩ := reads_live same
  have run : (Linking.reload { includes := some [books] }
      { model := novelist, data := [("id", .ofInt 1)] } archive).1 = (.ok (), _) := rfl
  exact ⟨_, run, rfl, live.reload run, alike.count⟩

end Archive

end Engine

end RecordGraph
