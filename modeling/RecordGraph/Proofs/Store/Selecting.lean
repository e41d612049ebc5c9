import RecordGraph.Proofs.Store.Loading

/-!
# What a request selects

Each row that a request selects is made of one live record that the filter accepts: its values
are the shape of that record, and its related rows are those of that record.
-/

namespace RecordGraph

theorem Result.page_sublist {α : Type} {offset limit : Option Nat} {items : List α} :
    (page offset limit items).Sublist items := by
  cases limit with
  | none => exact List.drop_sublist ..
  | some n => exact (List.take_sublist ..).trans (List.drop_sublist ..)

theorem Result.sort_unordered {α : Type} (f : α → Record) (items : List α) :
    sort f [] items = items :=
  List.mergeSort_of_pairwise (List.pairwise_of_forall fun _ _ => rfl)

theorem Result.page_map {α β : Type} (f : α → β) (offset limit : Option Nat) (items : List α) :
    page offset limit (items.map f) = (page offset limit items).map f := by
  cases limit <;> simp [page, List.map_drop, List.map_take]

namespace Loading

variable {r : Registry} {d : Database} {source : Model}
variable {request : Request.Find} {records : List Record}

/-- The records that a request keeps are among the given ones, its filter accepts them, and
their related rows are loaded with them. -/
theorem exists_of_mem_matching {found : List (Record × Dict (Linked Row))}
    (done : matching r d source request records = .ok found) {entry : Record × Dict (Linked Row)}
    (member : entry ∈ found) :
    entry.1 ∈ records ∧ Filter.accepts request.filter entry.1 = .ok true ∧
      related r d true source entry.1 [] request.includeList = .ok (some entry.2) := by
  induction records generalizing found with
  | nil =>
      cases done
      cases member
  | cons record rest ih =>
      have later : ∀ {others}, matching r d source request rest = .ok others → entry ∈ others →
          entry.1 ∈ record :: rest ∧ Filter.accepts request.filter entry.1 = .ok true ∧
            related r d true source entry.1 [] request.includeList = .ok (some entry.2) :=
        fun done member => (ih done member).imp_left (List.mem_cons_of_mem _)
      rw [matching] at done
      obtain ⟨accepted, answer, done⟩ := bind_eq_ok_iff.mp done
      cases accepted with
      | false => exact later done member
      | true =>
          obtain ⟨filed, loads, done⟩ := bind_eq_ok_iff.mp done
          cases filed with
          | none => exact later done member
          | some filed =>
              obtain ⟨others, tail, done⟩ := bind_eq_ok_iff.mp done
              cases done
              rcases List.mem_cons.mp member with rfl | member
              · exact ⟨List.mem_cons_self, answer, loads⟩
              · exact later tail member

/-- The filter of a request has an answer on all records that the request goes through. -/
theorem answers_of_matching {found : List (Record × Dict (Linked Row))}
    (done : matching r d source request records = .ok found) :
    ∀ record ∈ records, ∃ b, Filter.accepts request.filter record = .ok b := by
  induction records generalizing found with
  | nil => nofun
  | cons record rest ih =>
      rw [matching] at done
      obtain ⟨accepted, answer, done⟩ := bind_eq_ok_iff.mp done
      refine List.forall_mem_cons.mpr ⟨⟨accepted, answer⟩, ?_⟩
      cases accepted with
      | false => exact ih done
      | true =>
          obtain ⟨filed, -, done⟩ := bind_eq_ok_iff.mp done
          cases filed with
          | none => exact ih done
          | some filed =>
              obtain ⟨others, tail, -⟩ := bind_eq_ok_iff.mp done
              exact ih tail

/-- A row is what a request makes of a record that its filter accepts. -/
structure Picked (r : Registry) (d : Database) (source : Model) (request : Request.Find)
    (record : Record) (row : Row) : Prop where
  model : row.model = source
  accepted : Filter.accepts request.filter record = .ok true
  shaped : Result.project record request.attributes = .ok row.data
  loaded : related r d true source record [] request.includeList = .ok (some row.related)

/-- Rows are never selected in groups. -/
theorem ungrouped_of_select {rows : List Row} (done : select r d source request = .ok rows) :
    request.group = none := by
  rw [select] at done
  split at done
  · cases done
  · next ungrouped => simpa using ungrouped

/-- Each row that a request asks for is made of a live record. -/
theorem exists_of_mem_select {rows : List Row} {row : Row}
    (done : select r d source request = .ok rows) (member : row ∈ rows) :
    ∃ record ∈ (d.openTable source.name).liveRecords, Picked r d source request record row := by
  rw [select, ungrouped_of_select done] at done
  cases table : d.table? source.name with
  | none =>
      rw [table] at done
      cases done
      cases member
  | some t =>
      have opened : d.openTable source.name = t := by
        rw [Database.openTable, ← Database.table?, table, Option.getD_some]
      rw [table] at done
      obtain ⟨found, matched, done⟩ := bind_eq_ok_iff.mp done
      obtain ⟨keys, -, done⟩ := bind_eq_ok_iff.mp done
      obtain ⟨⟨record, filed⟩, among, done⟩ := exists_of_mapM_ok done row member
      obtain ⟨data, shaped, done⟩ := bind_eq_ok_iff.mp done
      cases done
      have stays : (record, filed) ∈ found :=
        List.mem_mergeSort.mp (Result.page_sublist.subset among)
      obtain ⟨live, accepted, loaded⟩ := exists_of_mem_matching matched stays
      exact ⟨record, opened ▸ live, rfl, accepted, shaped, loaded⟩

/-- A request selects the rows that it keeps: they are sorted, cut to the page, and then shaped. -/
theorem select_sorted {t : Table} {found : List (Record × Dict (Linked Row))}
    {keys : List Result.SortKey} (sorted : List (Record × Dict (Linked Row))) (ungrouped : request.group = none)
    (ordered : Result.sortKeys (request.order.getD []) = .ok keys)
    (table : d.table? source.name = some t)
    (matched : matching r d source request (t.live.map (·.data)) = .ok found)
    (sorts : Result.sort Prod.fst keys found = sorted) :
    select r d source request =
      (Result.page request.offset request.limit sorted).mapM fun (record, filed) => (do
        let data ← Result.project record request.attributes
        pure { model := source, data, related := filed } : Except StorageError Row) := by
  rw [select, ungrouped, table]
  simp only [Option.isSome_none, Bool.false_eq_true, if_false, matched, ok_bind, ordered, sorts]

/-- It has an answer on all live records, also on those past the page. -/
theorem answers_of_select {rows : List Row} (done : select r d source request = .ok rows) :
    ∀ record ∈ (d.openTable source.name).liveRecords,
      ∃ b, Filter.accepts request.filter record = .ok b := by
  rw [Database.openTable]
  cases table : d.get? source.name with
  | none => exact List.forall_mem_nil _
  | some t =>
      rw [select, ungrouped_of_select done, Database.table?, table] at done
      obtain ⟨found, matched, -⟩ := bind_eq_ok_iff.mp done
      exact answers_of_matching matched

end Loading

namespace Engine

variable {m : Model} {request : Request.Find} {rows : List Row} {first : Option Row} {e e' : Engine}

theorem findAll_run (m : Model) (request : Request.Find) (e : Engine) :
    findAll m request e = (Loading.model e.registry m.name >>= fun registered =>
      Loading.select e.registry e.database registered request, e) := by
  rw [findAll, Action.bind_run_ok (Action.get_run e), Action.bind_run, Action.lift_run]
  cases Loading.model e.registry m.name <;> rfl

/-- Reading rows leaves the engine as it is and answers the rows that are selected. -/
theorem findAll_ok (registered : e.registry.get? m.name = some m)
    (done : findAll m request e = (.ok rows, e')) :
    e' = e ∧ Loading.select e.registry e.database m request = .ok rows := by
  rw [findAll_run, Loading.model, registered] at done
  obtain ⟨selected, rfl⟩ := Prod.ext_iff.mp done
  exact ⟨rfl, selected⟩

/-- Finding answers the rows that a request keeps, sorted, cut to the page and shaped. -/
theorem findAll_sorted {registered : Model} {t : Table}
    {found : List (Record × Dict (Linked Row))} {keys : List Result.SortKey}
    (sorted : List (Record × Dict (Linked Row)))
    (known : Loading.model e.registry m.name = .ok registered) (ungrouped : request.group = none)
    (ordered : Result.sortKeys (request.order.getD []) = .ok keys)
    (table : e.database.table? registered.name = some t)
    (matched : Loading.matching e.registry e.database registered request
      (t.live.map (·.data)) = .ok found)
    (sorts : Result.sort Prod.fst keys found = sorted) :
    findAll m request e =
      ((Result.page request.offset request.limit sorted).mapM fun (record, filed) => (do
        let data ← Result.project record request.attributes
        pure { model := registered, data, related := filed } : Except StorageError Row), e) := by
  rw [findAll_run, known, ok_bind, Loading.select_sorted sorted ungrouped ordered table matched sorts]

/-- Where a request asks for no order, the rows are found in that of their table. -/
theorem findAll_unsorted {registered : Model} {t : Table}
    {found : List (Record × Dict (Linked Row))}
    (known : Loading.model e.registry m.name = .ok registered) (ungrouped : request.group = none)
    (unordered : request.order = none) (table : e.database.table? registered.name = some t)
    (matched : Loading.matching e.registry e.database registered request
      (t.live.map (·.data)) = .ok found) :
    findAll m request e =
      ((Result.page request.offset request.limit found).mapM fun (record, filed) => (do
        let data ← Result.project record request.attributes
        pure { model := registered, data, related := filed } : Except StorageError Row), e) :=
  findAll_sorted found known ungrouped (congrArg (fun o => Result.sortKeys (o.getD [])) unordered) table
    matched (Result.sort_unordered ..)

theorem findOne_found (rows : List Row)
    (found : findAll m { request with limit := some 1 } e = (.ok rows, e)) :
    findOne m request e = (.ok rows.head?, e) :=
  Action.bind_run_ok found

/-- A row that is looked for is the first of all rows that are found with room for one. -/
theorem exists_findAll_of_findOne (done : (findOne m request e).1 = .ok first) :
    ∃ rows, (findAll m { request with limit := some 1 } e).1 = .ok rows ∧ first = rows.head? := by
  rw [findOne] at done
  exact Action.bind_pure_ok done

/-- Reading one row answers the first of those that are selected for it. -/
theorem findOne_run (registered : e.registry.get? m.name = some m) (request : Request.Find) :
    findOne m request e =
      ((Loading.select e.registry e.database m { request with limit := some 1 }).map List.head?,
        e) := by
  rw [findOne, Action.bind_run, findAll_run, Loading.model, registered, ok_bind]
  cases Loading.select e.registry e.database m { request with limit := some 1 } <;> rfl

theorem findOne_ok_iff (registered : e.registry.get? m.name = some m) :
    findOne m request e = (.ok first, e') ↔ e' = e ∧ ∃ rows, rows.head? = first ∧
      Loading.select e.registry e.database m { request with limit := some 1 } = .ok rows := by
  rw [findOne_run registered]
  cases Loading.select e.registry e.database m { request with limit := some 1 } with
  | error err => exact ⟨nofun, nofun⟩
  | ok rows =>
      constructor
      · intro done
        cases done
        exact ⟨rfl, rows, rfl, rfl⟩
      · rintro ⟨rfl, _, rfl, ⟨⟩⟩
        rfl

end Engine

end RecordGraph
