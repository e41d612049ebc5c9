import RecordGraph.Proofs.Store.Rewriting
import RecordGraph.Proofs.Store.Visibility
import RecordGraph.Proofs.Write.Atomicity
import RecordGraph.Proofs.Write.Run

/-!
# What an update answers

An update writes the rows that its filter chooses and then reads, by the same filter, the rows
that it answers. Between the two the table has changed. Where nothing that was written is under
a column that the filter mentions, the rows that are read are those that were written.
-/

namespace RecordGraph

namespace Repository

variable {repo : Repository} {q : Query} {draft : Draft} {options : PersistOptions}
variable {e e' : Engine} {rows : List Row} {mode : WriteMode}

/-- What an update asks of the engine to write the rows of a query. -/
def writing (q : Query) (options : PersistOptions) : Request.Update where
  filter := q.descriptor.selection.filter
  limit := q.descriptor.selection.limit?
  validate := options.validate
  transaction := options.transaction

/-- What it asks of the engine to read the rows that it answers. -/
def rereading (q : Query) (options : PersistOptions) : Request.Find where
  filter := q.descriptor.selection.filter
  limit := q.descriptor.selection.limit?
  transaction := options.transaction

/-- An update has a transaction of its own only if it is to be atomic and is given none. -/
theorem atomic_of_not_direct
    (attached : ¬ (repo.updateMode = .detached ∨ options.transaction.isSome = true)) :
    repo.updateMode = .transactional ∧ options.transaction = none := by
  obtain ⟨notDetached, free⟩ := not_or.mp attached
  refine ⟨?_, by simpa using free⟩
  cases mode : repo.updateMode with
  | detached => exact absurd mode notDetached
  | transactional => rfl

/-- An update that answers does so as without a transaction of its own, on the same database. -/
theorem updateRows_of_update (done : repo.update q draft options e = (.ok rows, e')) :
    ∃ after, repo.updateRows q draft options e = (.ok rows, after) ∧
      e'.database = after.database := by
  by_cases direct : repo.updateMode = .detached ∨ options.transaction.isSome = true
  · rw [update, if_pos direct] at done
    exact ⟨e', done, rfl⟩
  · obtain ⟨transactional, free⟩ := atomic_of_not_direct direct
    rw [update_run transactional free] at done
    generalize repo.updateRows q draft options e = run at done ⊢
    obtain ⟨result, after⟩ := run
    cases result with
    | error failure => cases done
    | ok found =>
        cases done
        exact ⟨after, rfl, rfl⟩

/-- An update that fails does so as without a transaction of its own. -/
theorem updateRows_of_update_error {failure : Failure}
    (failed : (repo.update q draft options e).1 = .error failure) :
    (repo.updateRows q draft options e).1 = .error failure := by
  by_cases direct : repo.updateMode = .detached ∨ options.transaction.isSome = true
  · rwa [update, if_pos direct] at failed
  · obtain ⟨transactional, free⟩ := atomic_of_not_direct direct
    rw [update_run transactional free] at failed
    generalize repo.updateRows q draft options e = run at failed ⊢
    obtain ⟨result, after⟩ := run
    cases result with
    | error other => exact failed
    | ok found => cases failed

/-- What an update that succeeds went through: the values are written, if there are any, then
rows are read, and related rows are written for each of these. -/
theorem updateRows_ok (done : repo.updateRows q draft options e = (.ok rows, e')) :
    ∃ e₁ e₂ found,
      (draft.fields = [] ∧ e₁ = e ∨
        ∃ n, Engine.update repo.model draft.fields (writing q options) e = (.ok n, e₁)) ∧
      Engine.findAll repo.model (rereading q options) e₁ = (.ok found, e₂) ∧
      found.mapM (repo.cascade q draft .update options) e₂ = (.ok rows, e') := by
  unfold updateRows at done
  dsimp only at done
  split at done
  · obtain ⟨n, e₁, written, done⟩ := Action.bind_ok done
    obtain ⟨found, e₂, read, done⟩ := Action.bind_ok done
    exact ⟨e₁, e₂, found, .inr ⟨n, Run.ofAction_ok_iff.mp written⟩,
      Run.ofAction_ok_iff.mp read, done⟩
  · next empty =>
    obtain ⟨found, e₂, read, done⟩ := Action.bind_ok done
    exact ⟨e, e₂, found, .inl ⟨by simpa using empty, rfl⟩, Run.ofAction_ok_iff.mp read, done⟩

/-- An update fails where the values are written, where the rows are read, or where related rows
are written for these. -/
theorem updateRows_error {failure : Failure}
    (failed : (repo.updateRows q draft options e).1 = .error failure) :
    (draft.fields ≠ [] ∧ ∃ error,
      (Engine.update repo.model draft.fields (writing q options) e).1 = .error error ∧
        Failure.ofStorage repo.model error = failure) ∨
    ∃ e₁, (draft.fields = [] ∧ e₁ = e ∨
        ∃ n, Engine.update repo.model draft.fields (writing q options) e = (.ok n, e₁)) ∧
      ((∃ error, (Engine.findAll repo.model (rereading q options) e₁).1 = .error error ∧
          Failure.ofStorage repo.model error = failure) ∨
        ∃ found e₂, Engine.findAll repo.model (rereading q options) e₁ = (.ok found, e₂) ∧
          (found.mapM (repo.cascade q draft .update options) e₂).1 = .error failure) := by
  have later {e₁ : Engine} (failed : ((repo.ask (Backend.findAll repo.model (rereading q options)) >>=
      fun found => found.mapM (repo.cascade q draft .update options)) e₁).1 = .error failure) :
      (∃ error, (Engine.findAll repo.model (rereading q options) e₁).1 = .error error ∧
          Failure.ofStorage repo.model error = failure) ∨
        ∃ found e₂, Engine.findAll repo.model (rereading q options) e₁ = (.ok found, e₂) ∧
          (found.mapM (repo.cascade q draft .update options) e₂).1 = .error failure := by
    rcases Action.bind_error failed with unread | ⟨found, e₂, read, failed⟩
    · exact .inl (mapError_eq_error_iff.mp unread)
    · exact .inr ⟨found, e₂, Run.ofAction_ok_iff.mp read, failed⟩
  unfold updateRows at failed
  dsimp only at failed
  split at failed
  · next given =>
    rcases Action.bind_error failed with unwritten | ⟨n, e₁, written, failed⟩
    · exact .inl ⟨by simpa using given, mapError_eq_error_iff.mp unwritten⟩
    · exact .inr ⟨e₁, .inr ⟨n, Run.ofAction_ok_iff.mp written⟩, later failed⟩
  · next empty => exact .inr ⟨e, .inl ⟨by simpa using empty, rfl⟩, later failed⟩

/-- Where values are written, related rows are written for the rows that are found after it. -/
theorem updateRows_found {e₁ : Engine} {n : Nat} (given : draft.fields ≠ [])
    (written : Engine.update repo.model draft.fields (writing q options) e = (.ok n, e₁))
    (found : Engine.findAll repo.model (rereading q options) e₁ = (.ok rows, e₁)) :
    repo.updateRows q draft options e = rows.mapM (repo.cascade q draft .update options) e₁ := by
  have wanted : (!draft.fields.isEmpty) = true := by simpa using given
  unfold updateRows
  simp only [wanted, if_true]
  exact (Action.bind_run_ok (Run.ofAction_ok_iff.mpr written)).trans
    (Action.bind_run_ok (Run.ofAction_ok_iff.mpr found))

/-- On a registered model the values are written into the chosen rows, if there are any values,
and the rows that related rows are written for are selected from the result. -/
theorem update_ok (registered : e.registry.get? repo.model.name = some repo.model)
    (done : repo.update q draft options e = (.ok rows, e')) :
    let before := e.database.openTable repo.model.name
    let places := before.chosen q.descriptor.selection.filter q.descriptor.selection.limit?
    ∃ written found after,
      (draft.fields = [] ∧ written = e ∨
        ∃ t, before.updateMany repo.model options.validate places draft.fields = .ok t ∧
          written = e.setTable repo.model.name t) ∧
      Loading.select written.registry written.database repo.model (rereading q options) =
        .ok found ∧
      found.mapM (repo.cascade q draft .update options) written = (.ok rows, after) ∧
      e'.database = after.database := by
  intro before places
  obtain ⟨after, done, database⟩ := updateRows_of_update done
  obtain ⟨e₁, e₂, found, wrote, read, answered⟩ := updateRows_ok done
  obtain ⟨empty, rfl⟩ | ⟨n, wrote⟩ := wrote
  · obtain ⟨rfl, selected⟩ := Engine.findAll_ok registered read
    exact ⟨_, found, after, .inl ⟨empty, rfl⟩, selected, answered, database⟩
  · obtain ⟨matched, t, matching, updated, -, rfl⟩ := Engine.update_ok wrote
    obtain ⟨rfl, selected⟩ := Engine.findAll_ok (e := e.setTable repo.model.name t) registered read
    obtain rfl : matched = places := Table.matching_ok matching
    exact ⟨_, found, after, .inr ⟨t, updated, rfl⟩, selected, answered, database⟩

/-- Without includes, or where related rows are left alone, nothing is written for a row. -/
theorem cascade_plain (plain : options.associate = false ∨ q.descriptor.includes = []) :
    (repo.cascade q draft mode options : Row → Run Engine Row) = pure := by
  funext row
  rw [cascade]
  split
  · next associate =>
    obtain off | none := plain
    · rw [off] at associate
      cases associate
    · rw [none]
      rfl
  · rfl

/-- Then the rows that are read are the answer. -/
theorem mapM_cascade_plain {found : List Row}
    (plain : options.associate = false ∨ q.descriptor.includes = [])
    (done : found.mapM (repo.cascade q draft mode options) e = (.ok rows, e')) :
    rows = found ∧ e' = e := by
  have unchanged := congrFun (List.mapM_pure (m := Run Engine) (f := id) (l := found)) e
  rw [List.map_id] at unchanged
  rw [cascade_plain plain] at done
  cases done.symm.trans unchanged
  exact ⟨rfl, rfl⟩

/-- Where the columns that are written are not mentioned in the filter of the query, an update
without related rows answers the rows that it has written, as they are in the table
afterwards: they are the first live rows that the filter holds of, as many as the query takes
and in the order of insertion. Each of them holds the declared values that were given and its
old values under all other columns. No other row has changed, and no other table. -/
theorem update_answers_written (registered : e.registry.get? repo.model.name = some repo.model)
    (plain : options.associate = false ∨ q.descriptor.includes = [])
    (ordered : draft.fields.Ascending)
    (silent : ∀ name ∈ (Table.declared repo.model draft.fields).keys,
      ¬ Filter.Mentions name q.descriptor.selection.filter)
    (done : repo.update q draft options e = (.ok rows, e')) :
    let before := e.database.openTable repo.model.name
    let after := e'.database.openTable repo.model.name
    let places := before.chosen q.descriptor.selection.filter q.descriptor.selection.limit?
    before.Rewritten repo.model draft.fields places after ∧
      (rows.map some = places.map fun i =>
        after.rows[i]?.map fun stored => { model := repo.model, data := stored.data }) ∧
      ∀ other, other ≠ repo.model.name →
        e'.database.openTable other = e.database.openTable other := by
  intro before after places
  obtain ⟨written, found, last, wrote, selected, answered, database⟩ := update_ok registered done
  obtain ⟨rfl, rfl⟩ := mapM_cascade_plain plain answered
  obtain ⟨empty, rfl⟩ | ⟨t, updated, rfl⟩ := wrote
  · have same : after = before := congrArg (·.openTable repo.model.name) database
    refine ⟨?_, ?_, fun other _ => congrArg (·.openTable other) database⟩
    · rw [same, empty]
      exact Table.rewritten_nothing Table.chosen_inside
    · rw [same]
      exact Loading.select_chosen selected
  · have written : after = t := by
      rw [show after = e'.database.openTable repo.model.name from rfl, database]
      exact Database.openTable_setTable_self ..
    refine ⟨?_, ?_, fun other ne => ?_⟩
    · rw [written]
      exact Table.rewritten_updateMany ordered Table.nodup_chosen Table.chosen_inside updated
    · -- the rows are chosen anew, in the table that was written
      have again := Loading.select_chosen selected
      rw [Engine.setTable, Database.openTable_setTable_self,
        Table.chosen_updateMany ordered silent updated] at again
      rw [written]
      exact again
    · rw [database]
      exact Database.openTable_setTable_of_ne _ _ ne

section Race

/-- A runner, with the town that it was born in and the town that it lives in. -/
def runner : Model :=
  { name := "Runner"
    attributes :=
      [.identity "id", { name := "born" }, { name := "club", allowNull := true },
        { name := "lives" }]
    paranoid := true }

/-- Five runners. The first is not in the race any more, the second has moved. -/
def runners : Engine :=
  Command.run
    [.bulkCreate runner
      [[("born", .str "york"), ("lives", .str "york")],
        [("born", .str "york"), ("lives", .str "bath")],
        [("born", .str "bath"), ("lives", .str "bath")],
        [("born", .str "york"), ("lives", .str "york")],
        [("born", .str "york"), ("lives", .str "york")]] {},
      .destroy runner { limit := some 1 }]
    (Engine.ofRegistry [("Runner", runner)])

/-- Access to the runners. -/
def race : Repository :=
  { registry := [("Runner", runner)], model := runner, updateMode := .transactional }

/-- The first two runners that live where they were born. -/
def settled : Query where
  registry := race.registry
  model := runner
  descriptor :=
    { selection :=
        { model := "Runner"
          conditions := [⟨[("lives", Expr.reference "born")]⟩]
          taken := 2 } }

/-- A runner of a club as a row. -/
def harrier (id : Int) (town : String) : Row where
  model := runner
  data :=
    [("born", .str town), ("club", .str "harriers"), ("id", .ofInt id), ("lives", .str town)]

theorem not_mentions_club : ¬ Filter.Mentions "club" settled.descriptor.selection.filter := by
  rintro (⟨member, -, mentions⟩ | ⟨member, joins, -, -⟩)
  · obtain ⟨key, rfl⟩ := Prod.mk.inj (List.mem_singleton.mp member)
    rcases mentions with _ | ⟨-, column⟩ | ⟨-, operand, inner⟩
    · exact absurd key (by decide)
    · exact absurd column (by decide)
    · obtain rfl := List.mem_singleton.mp operand
      cases inner
  · obtain ⟨rfl, -⟩ := Prod.mk.inj (List.mem_singleton.mp member)
    cases joins

/-- Three of the runners live where they were born. The first two of them join a club, and they
are the ones that are answered. -/
theorem update_answers_written_race :
    let run := race.update settled { fields := [("club", .str "harriers")] } {} runners
    let after := run.2.database.openTable "Runner"
    run.1 = .ok [harrier 3 "bath", harrier 4 "york"] ∧
      (runners.database.openTable "Runner").Rewritten runner [("club", .str "harriers")] [2, 3]
        after ∧
      [harrier 3 "bath", harrier 4 "york"].map some =
        [2, 3].map fun i => after.rows[i]?.map fun stored =>
          { model := runner, data := stored.data } := by
  have joined : Engine.update runner [("club", .str "harriers")] (writing settled {}) runners =
      (.ok 2, _) := rfl
  have rows : race.updateRows settled { fields := [("club", .str "harriers")] } {} runners =
      (.ok [harrier 3 "bath", harrier 4 "york"], _) :=
    (updateRows_found (List.cons_ne_nil _ _) joined
      ((Engine.findAll_unsorted rfl rfl rfl rfl rfl).trans rfl)).trans rfl
  have answer : (race.update settled { fields := [("club", .str "harriers")] } {} runners).1 =
      .ok [harrier 3 "bath", harrier 4 "york"] := by
    rw [update_run rfl rfl, rows]
  have registered : runners.registry.get? race.model.name = some race.model := rfl
  have silent : ∀ name ∈ (Table.declared race.model [("club", .str "harriers")]).keys,
      ¬ Filter.Mentions name settled.descriptor.selection.filter := by
    intro name member
    obtain rfl := List.mem_singleton.mp member
    exact not_mentions_club
  have places : (runners.database.openTable race.model.name).chosen
      settled.descriptor.selection.filter settled.descriptor.selection.limit? = [2, 3] := rfl
  obtain ⟨rewritten, answered, -⟩ := update_answers_written registered (.inr rfl)
    (Dict.ascending_single ..) silent (Prod.ext answer rfl)
  rw [places] at rewritten answered
  exact ⟨answer, rewritten, answered⟩

end Race

end Repository

end RecordGraph
