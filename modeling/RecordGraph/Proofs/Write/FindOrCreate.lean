import RecordGraph.Proofs.Filter.Literals
import RecordGraph.Proofs.Store.Numbering
import RecordGraph.Proofs.Store.Required
import RecordGraph.Proofs.Store.Selecting
import RecordGraph.Proofs.Write.Saving

/-!
# Finding or creating twice

Where a query says of some columns what their values are, and nothing else, the row that it
creates has these values. No row had them before, so this row alone is found from then on.
-/

namespace RecordGraph

open RecordGraph.Filter

/-! ### What a new row holds -/

/-- A column that is declared, and not numbered by the store. -/
structure Model.Unnumbered (m : Model) (column : String) : Prop where
  declared : (m.attribute? column).isSome = true
  given : ∀ a ∈ m.attributes, a.name = column → a.autoIncrement = false

namespace Table

variable {m : Model} {t : Table} {data : Record} {column : String} {v : Value}

/-- Numbering some attributes leaves the other columns alone. -/
theorem get?_numberAll (attributes : List Attribute) {state : Record × Int}
    (others : ∀ a ∈ attributes, column ≠ a.name) :
    (attributes.foldl number state).1.get? column = state.1.get? column := by
  induction attributes generalizing state with
  | nil => rfl
  | cons a rest ih =>
      obtain ⟨here, later⟩ := List.forall_mem_cons.mp others
      exact (ih later).trans (get?_number_of_ne here)

/-- A new row has what is given for a column that is not numbered, null included. -/
theorem get?_newRecord (unnumbered : m.Unnumbered column) (given : data.get? column = some v) :
    (newRecord m t data).1.get? column = some v := by
  have starts : ∀ a ∈ m.attributes, a.name = column → initialValue? data a = some v := by
    intro a declared named
    simp [initialValue?, named, given, unnumbered.given a declared named]
  have others : ∀ a ∈ m.attributes.filter (·.autoIncrement), column ≠ a.name := by
    intro a numbered named
    obtain ⟨declared, numbered⟩ := List.mem_filter.mp numbered
    rw [unnumbered.given a declared named.symm] at numbered
    cases numbered
  rw [newRecord, get?_numberAll _ others, initialRecord_eq]
  exact get?_enterAll_of_starts m.attributes starts
    (.inl (List.mem_map.mp (Model.isSome_attribute?_iff.mp unnumbered.declared)))

end Table

/-! ### What a request shows -/

/-- What a request without includes makes of the only row that it finds. Its sort keys are read
although there is nothing to sort. -/
def Request.Find.present (request : Request.Find) (row : Row) : Except StorageError Row := do
  let _ ← Result.sortKeys (request.order.getD [])
  let data ← Result.project row.data request.attributes
  pure { row with data }

/-- The expressions that a selection shapes and sorts rows by name attributes of the model
itself. -/
structure Selection.OwnColumns (s : Selection) : Prop where
  attributes : ∀ e ∈ s.attributes, ∃ name, e = .attribute [] name
  orderings : ∀ t ∈ s.orderings, ∃ name, t.expr = .attribute [] name

namespace Result

theorem exists_sortKeys {terms : List Request.SortTerm}
    (own : ∀ t ∈ terms, t.path = [] ∧ ∃ name, t.target = .str name) :
    ∃ keys, sortKeys terms = .ok keys := by
  induction terms with
  | nil => exact ⟨[], rfl⟩
  | cons t rest ih =>
      obtain ⟨⟨path, name, target⟩, others⟩ := List.forall_mem_cons.mp own
      obtain ⟨keys, later⟩ := ih others
      exact ⟨_, by simp only [sortKeys, path, target, later, ok_bind, pure_eq_ok]; rfl⟩

theorem exists_project {record : Record} {items : Option (List Request.Projection)}
    (named : ∀ item ∈ items.getD [], ∃ name, item = .name name) :
    ∃ data, project record items = .ok data := by
  cases items with
  | none => exact ⟨record, rfl⟩
  | some items =>
      have each : ∀ item ∈ items, ∃ name, projectedName item = .ok name := by
        intro item member
        obtain ⟨name, rfl⟩ := named item member
        exact ⟨name, rfl⟩
      obtain ⟨names, walked⟩ := exists_mapM_eq each
      exact ⟨_, by simp only [project, walked, ok_bind, pure_eq_ok]; rfl⟩

end Result

/-- Where rows are shaped and sorted by attributes of their own, a row is shown, and it is shown
whole if no attributes are asked for. -/
theorem Selection.OwnColumns.present {s : Selection} (own : s.OwnColumns) {r : Registry}
    {request : Request.Find} (shape : request.attributes = s.projection?)
    (order : s.order? r = .ok request.order) (row : Row) :
    ∃ shown, request.present row = .ok shown ∧ (s.attributes = [] → shown = row) := by
  obtain ⟨terms, sorts, made⟩ := bind_eq_ok_iff.mp order
  have keyed : ∀ t ∈ request.order.getD [], t.path = [] ∧ ∃ name, t.target = .str name := by
    rw [← Except.ok.inj made, getD_nonEmpty?]
    intro t member
    obtain ⟨term, among, written⟩ := exists_of_mapM_ok sorts t member
    obtain ⟨name, named⟩ := own.orderings term among
    rw [OrderTerm.toRequest, named] at written
    cases written
    exact ⟨rfl, name, rfl⟩
  have named : ∀ item ∈ request.attributes.getD [], ∃ name, item = .name name := by
    rw [shape, projection?, getD_nonEmpty?]
    intro item member
    obtain ⟨e, among, rfl⟩ := List.mem_map.mp member
    obtain ⟨name, rfl⟩ := own.attributes e among
    exact ⟨name, rfl⟩
  obtain ⟨keys, sorted⟩ := Result.exists_sortKeys keyed
  obtain ⟨data, shaped⟩ : ∃ data, Result.project row.data request.attributes = .ok data :=
    Result.exists_project named
  refine ⟨{ row with data }, ?_, fun whole => ?_⟩
  · rw [Request.Find.present, sorted, ok_bind, shaped]
    rfl
  · have none : request.attributes = none := by
      rw [shape, projection?, whole]
      rfl
    rw [none] at shaped
    cases shaped
    cases row
    rfl

namespace Query

variable {q : Query} {request : Request.Find}

theorem filter_of_toFind (asked : q.toFind = .ok request) :
    request.filter = q.descriptor.selection.filter := by
  obtain ⟨order, -, made⟩ := bind_eq_ok_iff.mp asked
  rw [← Except.ok.inj made]

theorem shape_of_toFind (asked : q.toFind = .ok request) :
    request.attributes = q.descriptor.selection.projection? ∧
      q.descriptor.selection.order? q.registry = .ok request.order := by
  obtain ⟨order, sorts, made⟩ := bind_eq_ok_iff.mp asked
  rw [← Except.ok.inj made]
  exact ⟨rfl, sorts⟩

/-- A query that skips nothing and includes nothing asks for rows from the first one on. -/
theorem plain_of_toFind (asked : q.toFind = .ok request)
    (unskipped : q.descriptor.selection.skipped = 0) (plain : q.descriptor.includes = []) :
    request.includes = none ∧ request.offset = none := by
  obtain ⟨order, -, made⟩ := bind_eq_ok_iff.mp asked
  rw [← Except.ok.inj made, plain]
  exact ⟨rfl, by simp [Selection.offset?, Selection.nonZero?, unskipped]⟩

end Query

namespace Loading

variable {r : Registry} {d : Database} {m : Model} {request : Request.Find} {t : Table}
variable {record : Record}

/-- A request without includes that starts at the first row and takes one selects the only live
record that its filter holds of. -/
theorem select_single (ungrouped : request.group = none) (plain : request.includes = none)
    (start : request.offset = none) (one : request.limit = some 1)
    (table : d.table? m.name = some t)
    (answers : ∀ record ∈ t.liveRecords, ∃ b, accepts request.filter record = .ok b)
    (only : t.liveRecords.filter (holds request.filter) = [record]) :
    select r d m request =
      (request.present { model := m, data := record }).map fun row => [row] := by
  have decided : ∀ record ∈ t.liveRecords,
      accepts request.filter record = .ok (holds request.filter record) := by
    intro record live
    obtain ⟨b, answer⟩ := answers record live
    rw [holds, answer]
  have loads : ∀ record ∈ t.liveRecords.filter (holds request.filter), ∃ filed,
      related r d true m record [] request.includeList = .ok (some filed) := by
    intro record _
    rw [Request.Find.includeList, plain]
    exact ⟨[], rfl⟩
  obtain ⟨found, matched, -, -⟩ := matching_ok decided loads
  obtain rfl := matching_plain plain matched
  rw [only] at matched
  rw [select, ungrouped, table]
  simp only [Option.isSome_none, Bool.false_eq_true, if_false]
  rw [show t.live.map (·.data) = t.liveRecords from rfl, matched, start, one]
  simp only [ok_bind, Request.Find.present]
  cases Result.sortKeys (request.order.getD []) with
  | error err => rfl
  | ok keys =>
      simp only [ok_bind, Result.sort, List.map_cons, List.map_nil, List.mergeSort_singleton]
      rw [show Result.page none (some 1) [(record, ([] : Dict (Linked Row)))] = [(record, [])]
        from rfl, List.mapM_cons, List.mapM_nil]
      cases Result.project record request.attributes <;> rfl

end Loading

/-- A filter says of declared columns that are not numbered what their values are, and nothing
else. -/
def Model.Equates (m : Model) (filter : Record) : Prop :=
  ∀ entry ∈ filter, m.Unnumbered entry.1 ∧ isReserved entry.1 = false ∧
    isLiteral entry.2 = true

/-- Such a filter has an answer on every record. -/
theorem Model.Equates.answers {m : Model} {filter : Record} (equates : m.Equates filter)
    (record : Record) : ∃ b, accepts filter record = .ok b := by
  rw [accepts, matchesAll_eq_allOf]
  refine exists_allOf_eq fun entry member => ?_
  obtain ⟨-, free, literal⟩ := equates entry member
  exact ⟨_, comparesLiteral_of_isLiteral free literal record⟩

/-- It accepts a record that has the values. -/
theorem Model.Equates.accepts {m : Model} {filter record : Record} (equates : m.Equates filter)
    (held : ∀ entry ∈ filter, record.get? entry.1 = some entry.2) :
    accepts filter record = .ok true := by
  rw [Filter.accepts, matchesAll_eq_allOf, allOf_eq_true_iff]
  intro entry member
  obtain ⟨-, free, literal⟩ := equates entry member
  rw [comparesLiteral_of_isLiteral free literal, isEqual_of_get? (held entry member)]

namespace Repository

variable {repo : Repository} {q : Query} {defaults : Draft} {options : PersistOptions}
variable {e e' : Engine} {row : Row}

/-- The values that a query creates a row from. -/
def filled (q : Query) (defaults : Draft) : Record :=
  defaults.fields.extend (literals q.descriptor.selection.filter)

theorem mem_literals_iff {filter : Record} {entry : String × Value} : entry ∈ literals filter ↔
    entry ∈ filter ∧ isReserved entry.1 = false ∧ isOperatorMap entry.2 = false := by
  simp [literals]

/-- What is copied from the filter replaces the defaults. -/
theorem get?_filled {k : String} {v : Value}
    (copied : (k, v) ∈ literals q.descriptor.selection.filter) :
    (filled q defaults).get? k = some v := by
  have ordered : (literals q.descriptor.selection.filter).Ascending :=
    Dict.ascending_filter _ (Condition.ascending_all _)
  rw [filled, Dict.get?_extend ordered, (Dict.get?_eq_some_iff_mem ordered).mpr copied]
  rfl

/-- A row is created after none was found, and then its related rows are written. -/
theorem findOrCreate_created (registered : e.registry.get? repo.model.name = some repo.model)
    (done : repo.findOrCreate q defaults options e = (.ok (row, true), e')) :
    ∃ request first e₁, q.toFind = .ok request ∧
      Loading.select e.registry e.database repo.model
        { request with limit := some 1, transaction := options.transaction } = .ok [] ∧
      Engine.create repo.model (filled q defaults) options.toWrite e = (.ok first, e₁) ∧
      repo.cascade q { defaults with fields := filled q defaults } .create options first e₁ =
        (.ok row, e') := by
  obtain ⟨request, asked, done⟩ := Run.lift_bind_ok done
  obtain ⟨found, e₁, read, done⟩ := Action.bind_ok done
  obtain ⟨rfl, rows, head, selected⟩ :=
    (Engine.findOne_ok_iff registered).mp (Run.ofAction_ok_iff.mp read)
  cases found with
  | some other => cases done
  | none =>
      obtain rfl := List.head?_eq_none_iff.mp head
      obtain ⟨made, e₂, create, answered⟩ := Action.bind_ok done
      cases answered
      obtain ⟨first, e₃, stored, walked⟩ := Action.bind_ok create
      exact ⟨request, first, e₃, asked, selected, Run.ofAction_ok_iff.mp stored, walked⟩

/-- The row that a query of equalities creates has the values that the query asks for, and the
query asks for no other live row afterwards. -/
theorem accepted_of_created {first : Row} {request : Request.Find} {e₁ : Engine}
    (registered : e.registry.get? repo.model.name = some repo.model)
    (equates : repo.model.Equates q.descriptor.selection.filter)
    (missed : Loading.select e.registry e.database repo.model request = .ok [])
    (asks : request.filter = q.descriptor.selection.filter)
    (plain : request.includes = none) (start : request.offset = none)
    (one : request.limit = some 1)
    (created : Engine.create repo.model (filled q defaults) options.toWrite e = (.ok first, e₁)) :
    accepts q.descriptor.selection.filter first.data = .ok true ∧
      (e₁.database.openTable repo.model.name).liveRecords.filter
        (holds q.descriptor.selection.filter) = [first.data] := by
  obtain ⟨t, made, appended, rfl⟩ := Engine.create_stored registered created
  have accepted : accepts q.descriptor.selection.filter first.data = .ok true := by
    refine equates.accepts fun entry member => ?_
    obtain ⟨unnumbered, free, literal⟩ := equates entry member
    have copied : entry ∈ literals q.descriptor.selection.filter :=
      mem_literals_iff.mpr ⟨member, free, (isLiteral_iff.mp literal).2⟩
    rw [made]
    exact Table.get?_newRecord unnumbered (get?_filled copied)
  have refused := Loading.refused_of_select_nil plain start (by simp [one]) missed
  rw [asks] at refused
  have before : (e.database.openTable repo.model.name).liveRecords.filter
      (holds q.descriptor.selection.filter) = [] := by
    refine List.filter_eq_nil_iff.mpr fun record live => ?_
    simp [holds, refused record live]
  refine ⟨accepted, ?_⟩
  have live : t.liveRecords =
      (e.database.openTable repo.model.name).liveRecords ++ [first.data] := by
    simp [Table.liveRecords, Table.live, appended]
  rw [Engine.setTable, Database.openTable_setTable_self, live, List.filter_append, before]
  simp [holds, accepted]

/-- Finding or creating goes by the first row that is found: it is answered, or else a row is
created. -/
theorem findOrCreate_found {request : Request.Find} (answer : Except StorageError (List Row))
    (asked : q.toFind = .ok request)
    (found : Engine.findAll repo.model
      { request with limit := some 1, transaction := options.transaction } e = (answer, e)) :
    repo.findOrCreate q defaults options e =
      match answer.map List.head? with
      | .ok (some row) => (.ok (row, false), e)
      | .ok none =>
        (repo.create q
          { defaults with fields := defaults.fields.extend (literals q.descriptor.selection.filter) }
          options >>= fun row => pure (row, true) : Run Engine (Row × Bool)) e
      | .error err => (.error (.ofStorage repo.model err), e) := by
  have read : Backend.findOne repo.model { request with transaction := options.transaction } e =
      (answer.map List.head?, e) := by
    show Engine.findOne _ _ e = _
    rw [Engine.findOne, Action.bind_run, found]
    cases answer <;> rfl
  rw [findOrCreate, asked, Run.lift_bind_run, ask_bind_run, read]
  obtain err | ⟨⟩ | ⟨row, rest⟩ := answer <;> rfl

/-- Where a query asks for a single live record, that is the row that it is given, in the shape
that the query asks for. -/
theorem findOrCreate_single {request : Request.Find} {t : Table} {record : Record}
    (registered : e.registry.get? repo.model.name = some repo.model)
    (asked : q.toFind = .ok request) (ungrouped : request.group = none)
    (plain : request.includes = none) (start : request.offset = none)
    (table : e.database.table? repo.model.name = some t)
    (answers : ∀ record ∈ t.liveRecords, ∃ b, accepts request.filter record = .ok b)
    (only : t.liveRecords.filter (holds request.filter) = [record])
    (defaults : Draft) (options : PersistOptions) :
    repo.findOrCreate q defaults options e =
      (((request.present { model := repo.model, data := record }).mapError
        (.ofStorage repo.model)).map fun row => (row, false), e) := by
  have selected : Loading.select e.registry e.database repo.model
      { request with limit := some 1, transaction := options.transaction } =
        (request.present { model := repo.model, data := record }).map fun row => [row] :=
    Loading.select_single ungrouped plain start rfl table answers only
  have known : Loading.model e.registry repo.model.name = .ok repo.model := by
    rw [Loading.model, registered]
  rw [findOrCreate_found _ asked ((Engine.findAll_run ..).trans (by rw [known, ok_bind, selected]))]
  cases request.present { model := repo.model, data := record } <;> rfl

/-- A query that says of some columns what they are, and nothing else, creates a row that it
accepts. Whoever comes with the same query from then on is given this very row, whatever the
defaults, in the shape that the query asks for, and no table changes. A query that shapes or sorts
rows by something else than columns of their own may be refused then: before there is a row there
is nothing to refuse. -/
theorem findOrCreate_again (registered : e.registry.get? repo.model.name = some repo.model)
    (unskipped : q.descriptor.selection.skipped = 0) (plain : q.descriptor.includes = [])
    (equates : repo.model.Equates q.descriptor.selection.filter)
    (done : repo.findOrCreate q defaults options e = (.ok (row, true), e')) :
    accepts q.descriptor.selection.filter row.data = .ok true ∧
      ∃ request, q.toFind = .ok request ∧
        (q.descriptor.selection.OwnColumns → ∃ shown, request.present row = .ok shown ∧
          (q.descriptor.selection.attributes = [] → shown = row)) ∧
        ∀ defaults' options', repo.findOrCreate q defaults' options' e' =
          (((request.present row).mapError (.ofStorage repo.model)).map fun shown => (shown, false),
            e') := by
  obtain ⟨request, first, e₁, asked, missed, created, walked⟩ :=
    findOrCreate_created registered done
  rw [cascade_plain (.inr plain)] at walked
  cases walked
  have asks := Query.filter_of_toFind asked
  obtain ⟨shape, order⟩ := Query.shape_of_toFind asked
  obtain ⟨noIncludes, start⟩ := Query.plain_of_toFind asked unskipped plain
  have ungrouped := Loading.ungrouped_of_select missed
  obtain ⟨accepted, only⟩ :=
    accepted_of_created registered equates missed asks noIncludes start rfl created
  obtain ⟨t, whole, -, rfl⟩ := Engine.create_stored registered created
  refine ⟨accepted, request, asked, fun own => own.present shape order row, ?_⟩
  intro defaults' options'
  have table : (e.setTable repo.model.name t).database.table? repo.model.name = some t :=
    Dict.get?_insert_self ..
  have opened : (e.setTable repo.model.name t).database.openTable repo.model.name = t :=
    Database.openTable_setTable_self ..
  have answers : ∀ record ∈ t.liveRecords, ∃ b, accepts request.filter record = .ok b :=
    fun record _ => asks ▸ equates.answers record
  have registered' : (e.setTable repo.model.name t).registry.get? repo.model.name =
    some repo.model := registered
  rw [opened, ← asks] at only
  rw [findOrCreate_single registered' asked ungrouped noIncludes start table answers only]
  have whole : row = { model := repo.model, data := row.data } := by rw [whole]
  rw [← whole]

section Visits

/-- A visitor with a badge of any form, and perhaps an address. -/
def visitor : Model :=
  { name := "Visitor"
    attributes :=
      [.identity "id", { name := "name" }, { name := "mail", allowNull := true },
        { name := "badge", dataType := .json, allowNull := true },
        { name := "$note", allowNull := true }] }

/-- Access to the visitors. -/
def reception : Repository :=
  { registry := [("Visitor", visitor)], model := visitor }

/-- A visitor whose mail address is known. -/
def visitors : Engine :=
  Command.run [.create visitor [("mail", .str "a@b"), ("name", .str "ada")] {}]
    (Engine.ofRegistry reception.registry)

/-- The visitors of which a filter says something, in a shape. -/
def visiting (filter : Record) (attributes : List Expr) : Query where
  registry := reception.registry
  model := visitor
  descriptor := { selection := { model := "Visitor", conditions := [⟨filter⟩], attributes } }

/-- The visitor ada with a red badge and without an address. -/
def redAda : Query :=
  visiting [("badge", .obj [("colour", .str "red")]), ("mail", .null), ("name", .str "ada")] []

/-- The row of this visitor. -/
def adaWithBadge : Row where
  model := visitor
  data :=
    [("$note", .null), ("badge", .obj [("colour", .str "red")]), ("id", .ofInt 2), ("mail", .null),
      ("name", .str "ada")]

/-- A visitor with a document and null among the values is created, although the defaults have an
address, and the same visitor is found ever after. -/
theorem findOrCreate_again_ada :
    let run := reception.findOrCreate redAda { fields := [("mail", .str "x")] } {} visitors
    run.1 = .ok (adaWithBadge, true) ∧
      accepts redAda.descriptor.selection.filter adaWithBadge.data = .ok true ∧
      ∀ defaults options, reception.findOrCreate redAda defaults options run.2 =
        (.ok (adaWithBadge, false), run.2) := by
  have answer : (reception.findOrCreate redAda { fields := [("mail", .str "x")] } {} visitors).1 =
      .ok (adaWithBadge, true) :=
    congrArg Prod.fst (findOrCreate_found (.ok []) rfl
      ((Engine.findAll_unsorted rfl rfl rfl rfl rfl).trans rfl))
  have registered : visitors.registry.get? reception.model.name = some reception.model := rfl
  have columns : ∀ entry ∈ redAda.descriptor.selection.filter,
      (visitor.attribute? entry.1).isSome = true ∧
        (∀ a ∈ visitor.attributes, a.name = entry.1 → a.autoIncrement = false) ∧
        isReserved entry.1 = false ∧ isLiteral entry.2 = true := by decide
  have equates : reception.model.Equates redAda.descriptor.selection.filter := by
    intro entry member
    obtain ⟨declared, given, plain⟩ := columns entry member
    exact ⟨⟨declared, given⟩, plain⟩
  obtain ⟨accepted, request, -, shows, again⟩ :=
    findOrCreate_again registered rfl rfl equates (Prod.ext answer rfl)
  obtain ⟨shown, present, whole⟩ := shows ⟨List.forall_mem_nil _, List.forall_mem_nil _⟩
  obtain rfl := whole rfl
  rw [present] at again
  exact ⟨answer, accepted, again⟩

/-- A visitor of a name and nothing else. -/
def nameOnly (name : String) : Row where
  model := visitor
  data :=
    [("$note", .null), ("badge", .null), ("id", .ofInt 1), ("mail", .null), ("name", .str name)]

/-- The created row is not always what comes back. A column with a reserved name is not copied, so
the new row does not have its value, and from then on the filter has no answer. A query for names
is given the name of the row when it comes again. One for the result of a call is refused. -/
theorem findOrCreate_again_differs :
    (let q := visiting [("$note", .str "vip"), ("name", .str "bob")] []
      let run := reception.findOrCreate q {} {} (Engine.ofRegistry reception.registry)
      run.1 = .ok (nameOnly "bob", true) ∧
        accepts q.descriptor.selection.filter (nameOnly "bob").data =
          .error (.unsupported (.joinedKey "$note")) ∧
        (reception.findOrCreate q {} {} run.2).1 =
          .error (.storage (.unsupported (.joinedKey "$note")))) ∧
    (let q := visiting [("name", .str "bob")] [.attribute [] "name"]
      let run := reception.findOrCreate q {} {} (Engine.ofRegistry reception.registry)
      run.1 = .ok (nameOnly "bob", true) ∧
        (reception.findOrCreate q {} {} run.2).1 =
          .ok ({ model := visitor, data := [("name", .str "bob")] }, false)) ∧
    (let q := visiting [("name", .str "bob")] [.call "upper" [.attribute [] "name"]]
      let run := reception.findOrCreate q {} {} (Engine.ofRegistry reception.registry)
      run.1 = .ok (nameOnly "bob", true) ∧
        (reception.findOrCreate q {} {} run.2).1 =
          .error (.storage (.unsupported .projection))) := by
  refine ⟨⟨rfl, rfl, rfl⟩, ⟨rfl, ?_⟩, rfl, ?_⟩
  · exact congrArg Prod.fst (findOrCreate_found (.ok [_]) rfl
      ((Engine.findAll_unsorted rfl rfl rfl rfl rfl).trans rfl))
  · exact congrArg Prod.fst (findOrCreate_found (.error (.unsupported .projection)) rfl
      ((Engine.findAll_unsorted rfl rfl rfl rfl rfl).trans rfl))

end Visits

end Repository

end RecordGraph
