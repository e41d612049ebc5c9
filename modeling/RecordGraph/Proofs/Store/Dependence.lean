import RecordGraph.Proofs.Store.Linking
import RecordGraph.Proofs.Store.Lockstep
import RecordGraph.Proofs.Store.Selecting

/-!
# What loading depends on

A database is looked at in two places when a request is answered: for the live rows of the table
of its model, and for the records that are associated with a record. So what is found and what is
loaded below it is the same on two databases that agree on these, as far as the includes reach.
-/

namespace RecordGraph

namespace Loading

variable {r : Registry} {d d' : Database} {source target : Model} {data : Record}
variable {head : Request.IncludeHead}

/-- A record is among those that an include of another one starts from: it is associated with
that one under the label of the include. -/
def EndsAt (r : Registry) (d : Database) (source : Model) (data : Record)
    (head : Request.IncludeHead) (target : Model) (record : Record) : Prop :=
  ∃ a records, source.association? head.label = some a ∧ r.get? head.model = some target ∧
    associated r d source a target data = .ok records ∧ record ∈ records

/-- The records that an include starts from are the same on two databases. -/
def SameEnds (r : Registry) (d d' : Database) (source : Model) (data : Record)
    (head : Request.IncludeHead) : Prop :=
  ∀ a target, source.association? head.label = some a → r.get? head.model = some target →
    associated r d' source a target data = associated r d source a target data

mutual

/-- The records that are associated with one along a list of includes are the same on two
databases, at every depth. -/
def SameAlong (r : Registry) (d d' : Database) (source : Model) (data : Record) :
    List Request.Include → Prop
  | [] => True
  | i :: rest => SameAt r d d' source data i ∧ SameAlong r d d' source data rest

/-- The records that are associated with one along an include are the same on two databases,
and so are those that are associated with these along the includes below. -/
def SameAt (r : Registry) (d d' : Database) (source : Model) (data : Record) :
    Request.Include → Prop
  | .leaf head => SameEnds r d d' source data head
  | .node head children =>
    SameEnds r d d' source data head ∧ ∀ target record, EndsAt r d source data head target record →
      SameAlong r d d' target record children

end

theorem rows_congr {below below' : Record → Except StorageError (Option (Dict (Linked Row)))}
    {records : List Record} (same : ∀ record ∈ records, below' record = below record) :
    rows head target below' records = rows head target below records := by
  induction records with
  | nil => rfl
  | cons record rest ih =>
      obtain ⟨here, later⟩ := List.forall_mem_cons.mp same
      rw [rows, rows, ih later, here]

/-- An include loads the same if it starts from the same records and loads the same for each
of them. -/
theorem including_congr
    {below below' : Model → Record → Except StorageError (Option (Dict (Linked Row)))}
    (ends : SameEnds r d d' source data head)
    (same : ∀ target record, EndsAt r d source data head target record →
      below' target record = below target record) :
    including r d' source data head below' = including r d source data head below := by
  rw [including, including]
  cases known : association source head.label with
  | error err => rfl
  | ok a =>
      cases registered : model r head.model with
      | error err => rfl
      | ok target =>
          have known := Linking.association_ok known
          have registered := Linking.model_ok registered
          simp only [ok_bind, ends a target known registered]
          cases reached : associated r d source a target data with
          | error err => rfl
          | ok records =>
              have each : rows head target (below' target) records =
                  rows head target (below target) records :=
                rows_congr fun record member =>
                  same target record ⟨a, records, known, registered, reached, member⟩
              simp only [ok_bind, each]

mutual

/-- From the same associated records the same related rows are loaded. -/
theorem related_same : ∀ (includes : List Request.Include) (source : Model) (data : Record)
    (enforce : Bool) (filed : Dict (Linked Row)), SameAlong r d d' source data includes →
    related r d' enforce source data filed includes =
      related r d enforce source data filed includes
  | [], _, _, _, _, _ => rfl
  | i :: rest, source, data, enforce, filed, same => by
      obtain ⟨here, later⟩ := same
      simp only [related, one_same i source data here, related_same rest source data _ _ later]

theorem one_same : ∀ (i : Request.Include) (source : Model) (data : Record),
    SameAt r d d' source data i → one r d' source data i = one r d source data i
  | .leaf head, source, data, same => by
      rw [one, one]
      exact including_congr same fun _ _ _ => rfl
  | .node head children, source, data, same => by
      obtain ⟨ends, below⟩ := same
      rw [one, one]
      exact including_congr ends fun target record reached =>
        related_same children target record true [] (below target record reached)

end

mutual

/-- Where all records have the same associated ones, these are the same along all includes. -/
theorem sameAlong_of_ends (ends : ∀ source data head, SameEnds r d d' source data head) :
    ∀ (includes : List Request.Include) (source : Model) (data : Record),
      SameAlong r d d' source data includes
  | [], _, _ => trivial
  | i :: rest, source, data => ⟨sameAt_of_ends ends i source data,
      sameAlong_of_ends ends rest source data⟩

theorem sameAt_of_ends (ends : ∀ source data head, SameEnds r d d' source data head) :
    ∀ (i : Request.Include) (source : Model) (data : Record), SameAt r d d' source data i
  | .leaf head, source, data => ends source data head
  | .node head children, source, data =>
      ⟨ends source data head, fun target record _ => sameAlong_of_ends ends children target record⟩

end

section Select

variable {request : Request.Find}

theorem matching_congr {records : List Record}
    (same : ∀ record ∈ records, related r d' true source record [] request.includeList =
      related r d true source record [] request.includeList) :
    matching r d' source request records = matching r d source request records := by
  induction records with
  | nil => rfl
  | cons record rest ih =>
      obtain ⟨here, later⟩ := List.forall_mem_cons.mp same
      rw [matching, matching, ih later, here]

/-- A request finds the same if the table has the same live rows and the same is loaded for
each of them. -/
theorem select_congr
    (table : (d'.table? source.name).map Table.live = (d.table? source.name).map Table.live)
    (same : ∀ record, related r d' true source record [] request.includeList =
      related r d true source record [] request.includeList) :
    select r d' source request = select r d source request := by
  rw [select, select]
  cases here : d.table? source.name with
  | none =>
      cases there : d'.table? source.name with
      | none => rfl
      | some t' => simp [here, there] at table
  | some t =>
      cases there : d'.table? source.name with
      | none => simp [here, there] at table
      | some t' =>
          have live : t'.live = t.live := by simpa [here, there] using table
          simp only [live, matching_congr fun record _ => same record]

end Select

end Loading

section Engines

variable {e f : Engine}

/-- Two engines find the same rows of a model if they know the same models and select the same
rows of the one that is registered. -/
theorem Engine.findAll_congr {m : Model} {request : Request.Find} (known : f.registry = e.registry)
    (same : ∀ registered, e.registry.get? m.name = some registered →
      Loading.select e.registry f.database registered request =
        Loading.select e.registry e.database registered request) :
    (findAll m request f).1 = (findAll m request e).1 := by
  simp only [findAll_run, known]
  cases registered : Loading.model e.registry m.name with
  | error err => simp only [error_bind]
  | ok model =>
      rw [ok_bind, ok_bind]
      exact same model (Linking.model_ok registered)

/-- A row is read again alike if its table has the same live rows and the same is loaded for
them. -/
theorem Linking.reload_congr {request : Request.Reload} {row : Row}
    (rows : (f.database.openTable row.model.name).live = (e.database.openTable row.model.name).live)
    (same : ∀ data, Loading.related f.registry f.database false row.model data []
        request.includeList =
      Loading.related e.registry e.database false row.model data [] request.includeList) :
    (reload request row f).1 = (reload request row e).1 := by
  rw [reload, RowAction.bind_run_ok (RowAction.row_run f),
    RowAction.bind_run_ok (RowAction.row_run e),
    RowAction.bind_run_ok (RowAction.ofAction_run get f),
    RowAction.bind_run_ok (RowAction.ofAction_run get e)]
  simp only [Table.liveWhere, rows, same]
  -- From here on the engine is not looked at any more.
  refine (((rowLockstep_lift (R := fun _ _ => True) _).bind fun key => ?_) row _ _ trivial).1
  refine (rowLockstep_lift _).bind fun pk => ?_
  split
  · exact rowLockstep_throw _
  · exact (rowLockstep_lift _).bind fun _ => rowLockstep_modifyRow _

end Engines

end RecordGraph
