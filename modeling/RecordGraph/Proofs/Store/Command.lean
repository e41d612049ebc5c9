import RecordGraph.Proofs.Store.Linking

/-!
# What commands do to the engine

A command is a writing operation of the engine with everything it is given. `Step`
lists the ways in which the writers of a table change it, and `Transition` what a
command leaves: the engine as it was, one table changed in one of these ways, one
table dropped, or a transaction opened or closed. `perform_transition` is the one
place where the operations are run; what commands preserve follows from the shape of
transitions.
-/

namespace RecordGraph

variable {σ α β : Type}

/-- An outcome without its result: only whether there is one, and the state after it. -/
def outcome (run : Except StorageError α × σ) : Except StorageError Unit × σ :=
  (run.1.map fun _ => (), run.2)

/-- A later step that always answers and leaves the state does not change the outcome. -/
theorem Action.outcome_bind {x : Action σ α} {f : α → Action σ β} {s : σ}
    (h : ∀ a, ∃ b, f a (x s).2 = (.ok b, (x s).2)) : outcome ((x >>= f) s) = outcome (x s) := by
  rw [Action.bind_run]
  cases result : (x s).1 with
  | error err => simp [outcome, result, Except.map]
  | ok a =>
      obtain ⟨b, run⟩ := h a
      simp [outcome, result, run, Except.map]

/-- Changing the row with what an action answers does not change the outcome either. -/
theorem RowAction.outcome_modifyRow (x : Action σ α) (f : α → Row → Row) (row : Row) (s : σ) :
    let run := (RowAction.ofAction x >>= fun a => RowAction.modifyRow (f a)) row s
    (run.1.1, run.2) = outcome (x s) := by
  rw [RowAction.bind_run, RowAction.ofAction_run]
  obtain ⟨result, s'⟩ := x s
  cases result <;> rfl

/-- A step on a list that always answers and leaves the state does so on the whole list. -/
theorem Action.mapM_run {f : α → Action σ β} {g : α → β} {s : σ}
    (h : ∀ a, f a s = (.ok (g a), s)) (items : List α) :
    items.mapM f s = (.ok (items.map g), s) := by
  induction items with
  | nil => rfl
  | cons a rest ih =>
      rw [List.mapM_cons, Action.bind_run_ok (h a), Action.bind_run_ok ih]
      rfl

/-- The ways in which a table of a model is written. -/
inductive Table.Step (m : Model) (t : Table) : Table → Prop where
  | inserted {validate data record t'}
      (done : t.insert m validate data = .ok (record, t')) : Step m t t'
  | insertedAll {validate rows records t'}
      (done : t.insertAll m validate rows = .ok (records, t')) : Step m t t'
  | updatedAt {validate index data record t'}
      (done : t.updateAt m validate index data = .ok (record, t')) : Step m t t'
  | updatedMany {validate indices data t'}
      (done : t.updateMany m validate indices data = .ok t') : Step m t t'
  | marked (hidden : Bool) (indices : List Nat) : Step m t (t.setHidden hidden indices)
  | removed (indices : List Nat) : Step m t (t.remove indices)
  | cleared : Step m t t.clear

/-- A writing operation of the engine. -/
inductive Command where
  | create (model : Model) (data : Record) (request : Request.Write)
  | bulkCreate (model : Model) (rows : List Record) (request : Request.Write)
  | update (model : Model) (values : Record) (request : Request.Update)
  | upsert (model : Model) (values : Record) (request : Request.Write)
  | destroy (model : Model) (request : Request.Destroy)
  | restore (model : Model) (request : Request.Destroy)
  | truncate (model : Model)
  | dropTable (model : Model)
  | beginTransaction
  | commit (transaction : Nat)
  | rollback (transaction : Nat)
  | save (row : Row) (validate : Bool)
  | setAssociation (row : Row) (label : String) (linked : Linked Row)

namespace Command

/-- Carry a command out. -/
def perform : Command → Engine → Except StorageError Unit × Engine
  | .create model data request, e => outcome (Engine.create model data request e)
  | .bulkCreate model rows request, e => outcome (Engine.bulkCreate model rows request e)
  | .update model values request, e => outcome (Engine.update model values request e)
  | .upsert model values request, e => outcome (Engine.upsert model values request e)
  | .destroy model request, e => outcome (Engine.destroy model request e)
  | .restore model request, e => outcome (Engine.restore model request e)
  | .truncate model, e => outcome (Engine.truncate model e)
  | .dropTable model, e => outcome (Engine.dropTable model e)
  | .beginTransaction, e => outcome (Engine.beginTransaction e)
  | .commit transaction, e => outcome (Engine.commit transaction e)
  | .rollback transaction, e => outcome (Engine.rollback transaction e)
  | .save row validate, e =>
    let run := Linking.save validate row e
    (run.1.1, run.2)
  | .setAssociation row label linked, e =>
    let run := Linking.setAssociation label linked row e
    (run.1.1, run.2)

/-- Carry commands out one after the other, those that fail as well as those that do not. -/
def run (cs : List Command) (e : Engine) : Engine :=
  cs.foldl (fun e c => (c.perform e).2) e

/-- The model whose rows a command is about. -/
def model? : Command → Option Model
  | .create model _ _ | .bulkCreate model _ _ | .update model _ _ | .upsert model _ _
  | .destroy model _ | .restore model _ | .truncate model | .dropTable model => some model
  | .beginTransaction | .commit _ | .rollback _ => none
  | .save row _ | .setAssociation row _ _ => some row.model

/-- The model of a command is the registered one of its name. -/
def Registered (r : Registry) (c : Command) : Prop :=
  ∀ m, c.model? = some m → r.get? m.name = some m

/-- Whether a command connects rows and so may write tables of other models. -/
def isLink : Command → Bool
  | .setAssociation .. => true
  | _ => false

/-- What is left by a command: its result and the engine after it. -/
inductive Transition (e : Engine) (c : Command) : Except StorageError Unit × Engine → Prop where
  /-- Nothing happened. -/
  | idle (result : Except StorageError Unit) : Transition e c (result, e)
  /-- The table that was to be written is there, as it was. -/
  | refused (m : Model) (about : c.model? = some m) (err : StorageError) :
      Transition e c (.error err, e.setTable m.name (e.database.openTable m.name))
  | wrote (m : Model) (about : c.model? = some m) {t : Table}
      (step : (e.database.openTable m.name).Step m t) :
      Transition e c (.ok (), e.setTable m.name t)
  | dropped (m : Model) (about : c = .dropTable m) :
      Transition e c (.ok (), { e with database := e.database.dropTable m.name })
  | opened (about : c = .beginTransaction) :
      Transition e c (.ok (), { e with
        lastTransaction := e.lastTransaction + 1
        snapshots := (e.lastTransaction + 1, e.database) :: e.snapshots })
  | committed (id : Nat) (about : c = .commit id) {d : Database} (kept : e.snapshot? id = some d) :
      Transition e c (.ok (), e.close id)
  | rolledBack (id : Nat) (about : c = .rollback id) {d : Database}
      (kept : e.snapshot? id = some d) :
      Transition e c (.ok (), { e.close id with database := d })
  /-- The targets of an association hold the key of the source. -/
  | pointed (link : c.isLink = true) (name pk column : String) (key : Value)
      (wanted : List Value) :
      Transition e c (.ok (), e.setTable name
        (Linking.pointTargets pk column key wanted (e.database.openTable name)))
  /-- A join table holds the pairs of an association. -/
  | paired (link : c.isLink = true) (name sourceColumn targetColumn : String) (key : Value)
      (wanted : List Value) :
      Transition e c (.ok (), e.setTable name
        (Linking.pairTargets sourceColumn targetColumn key wanted (e.database.openTable name)))

variable {e : Engine} {c : Command} {m : Model}

/-- Work on the table of a command's model, all of it or none. -/
theorem Transition.onTable {work : Table → Except StorageError (α × Table)}
    (about : c.model? = some m)
    (steps : ∀ t a t', work t = .ok (a, t') → t.Step m t') :
    Transition e c (outcome (Engine.onTable m.name work e)) := by
  cases h : work (e.database.openTable m.name) with
  | error err =>
      rw [Engine.onTable_run_error h]
      exact .refused m about err
  | ok done =>
      obtain ⟨a, t⟩ := done
      rw [Engine.onTable_run_ok h]
      exact .wrote m about (steps _ a t h)

/-- Work on the table of a command's model whose rows are handed out afterwards. -/
theorem Transition.onTable_then {work : Table → Except StorageError (α × Table)}
    {f : α → Action Engine β} (about : c.model? = some m)
    (steps : ∀ t a t', work t = .ok (a, t') → t.Step m t')
    (answers : ∀ a (e' : Engine), e'.registry = e.registry → ∃ b, f a e' = (.ok b, e')) :
    Transition e c (outcome ((Engine.onTable m.name work >>= f) e)) := by
  rw [Action.outcome_bind fun a => answers a _ (Engine.onTable_registry)]
  exact .onTable about steps

section

variable (registered : e.registry.get? m.name = some m)
include registered

theorem transition_create (data : Record) (request : Request.Write) :
    Transition e (.create m data request) (outcome (Engine.create m data request e)) := by
  refine .onTable_then rfl (fun t record t' done => .inserted done) fun record e' same => ?_
  exact ⟨_, Engine.handOut_run (same ▸ registered) record⟩

theorem transition_bulkCreate (rows : List Record) (request : Request.Write) :
    Transition e (.bulkCreate m rows request) (outcome (Engine.bulkCreate m rows request e)) := by
  refine .onTable_then rfl (fun t records t' done => .insertedAll done) fun records e' same => ?_
  exact ⟨_, Action.mapM_run (fun record => Engine.handOut_run (same ▸ registered) record) records⟩

theorem transition_upsert (values : Record) (request : Request.Write) :
    Transition e (.upsert m values request) (outcome (Engine.upsert m values request e)) := by
  rw [Engine.upsert]
  cases named : Loading.primaryKey m with
  | error err =>
      rw [Action.bind_run_error (Action.lift_run _ e)]
      exact .idle (.error err)
  | ok pk =>
      rw [Action.bind_run_ok (Action.lift_run _ e)]
      refine .onTable_then rfl (fun t result t' done => ?_) fun result e' same => ?_
      · obtain ⟨existing, _, done⟩ := bind_eq_ok_iff.mp done
        cases existing with
        | none =>
            obtain ⟨⟨record, changed⟩, written, last⟩ := bind_eq_ok_iff.mp done
            cases last
            exact .inserted written
        | some index =>
            obtain ⟨⟨record, changed⟩, written, last⟩ := bind_eq_ok_iff.mp done
            cases last
            exact .updatedAt written
      · obtain ⟨record, created⟩ := result
        exact ⟨_, Action.bind_run_ok (Engine.handOut_run (same ▸ registered) record)⟩

end

theorem transition_update (values : Record) (request : Request.Update) :
    Transition e (.update m values request) (outcome (Engine.update m values request e)) := by
  refine .onTable rfl fun t count t' done => ?_
  obtain ⟨indices, _, done⟩ := bind_eq_ok_iff.mp done
  obtain ⟨changed, written, last⟩ := bind_eq_ok_iff.mp done
  cases last
  exact .updatedMany written

theorem transition_destroy (request : Request.Destroy) :
    Transition e (.destroy m request) (outcome (Engine.destroy m request e)) := by
  refine .onTable rfl fun t count t' done => ?_
  obtain ⟨indices, _, last⟩ := bind_eq_ok_iff.mp done
  cases last
  split
  · exact .marked true indices
  · exact .removed indices

theorem transition_restore (request : Request.Destroy) :
    Transition e (.restore m request) (outcome (Engine.restore m request e)) := by
  unfold Engine.restore
  split
  · refine .onTable rfl fun t count t' done => ?_
    obtain ⟨indices, _, last⟩ := bind_eq_ok_iff.mp done
    cases last
    exact .marked false indices
  · exact .idle (.ok ())

theorem transition_truncate : Transition e (.truncate m) (outcome (Engine.truncate m e)) := by
  refine .onTable rfl fun t result t' done => ?_
  cases done
  exact .cleared

theorem transition_commit (id : Nat) :
    Transition e (.commit id) (outcome (Engine.commit id e)) := by
  unfold Engine.commit
  cases kept : e.snapshot? id with
  | none => exact .idle _
  | some d => exact .committed id rfl kept

theorem transition_rollback (id : Nat) :
    Transition e (.rollback id) (outcome (Engine.rollback id e)) := by
  unfold Engine.rollback
  cases kept : e.snapshot? id with
  | none => exact .idle _
  | some d => exact .rolledBack id rfl kept

/-- Storing a row works on the table of its model, and then changes the row only. -/
theorem transition_save (row : Row) (validate : Bool) :
    Transition e (.save row validate) (Command.perform (.save row validate) e) := by
  simp only [perform, Linking.save]
  rw [RowAction.bind_run_ok (RowAction.row_run e)]
  split
  · rw [RowAction.outcome_modifyRow]
    exact .onTable rfl fun t record t' done => .inserted done
  · rw [RowAction.outcome_modifyRow]
    refine .onTable rfl fun t record t' done => ?_
    obtain ⟨key, _, done⟩ := bind_eq_ok_iff.mp done
    obtain ⟨place, _, done⟩ := bind_eq_ok_iff.mp done
    cases place with
    | none => cases done
    | some index => exact .updatedAt done

theorem transition_setAssociation (row : Row) (label : String) (linked : Linked Row) :
    Transition e (.setAssociation row label linked)
      (Command.perform (.setAssociation row label linked) e) := by
  simp only [perform]
  cases run : Linking.setAssociation label linked row e with
  | mk left e' =>
      obtain ⟨result, row'⟩ := left
      cases result with
      | error err =>
          rcases (Linking.connect_error (Linking.setAssociation_error run)).1 with rfl | rfl
          · exact .idle (.error err)
          · exact .refused row.model rfl err
      | ok _ =>
          obtain ⟨connected, connects, rfl⟩ := Linking.setAssociation_ok_iff.mp run
          obtain ⟨a, target, pk, wanted, _, connects⟩ := Linking.connect_ok connects
          cases connects with
          | belongsTo _ _ _ written => exact .wrote row.model rfl (.updatedAt written)
          | pointed => exact .pointed rfl target.name pk _ _ wanted
          | paired => exact .paired rfl _ _ a.joinTargetColumn _ wanted

/-- Every command about a registered model leaves the engine in one of the ways of
`Transition`. -/
theorem perform_transition (registered : c.Registered e.registry) :
    Transition e c (c.perform e) := by
  cases c with
  | create model data request => exact transition_create (registered model rfl) data request
  | bulkCreate model rows request =>
      exact transition_bulkCreate (registered model rfl) rows request
  | update model values request => exact transition_update values request
  | upsert model values request => exact transition_upsert (registered model rfl) values request
  | destroy model request => exact transition_destroy request
  | restore model request => exact transition_restore request
  | truncate model => exact transition_truncate
  | dropTable model => exact .dropped model rfl
  | beginTransaction => exact .opened rfl
  | commit id => exact transition_commit id
  | rollback id => exact transition_rollback id
  | save row validate => exact transition_save row validate
  | setAssociation row label linked => exact transition_setAssociation row label linked

theorem Transition.registry {left : Except StorageError Unit × Engine}
    (transition : Transition e c left) : left.2.registry = e.registry := by
  cases transition <;> rfl

theorem registry_perform (registered : c.Registered e.registry) :
    (c.perform e).2.registry = e.registry :=
  (perform_transition registered).registry

/-- A command that fails changes no table: not its rows, their order or their marks, and
not the counter. -/
theorem openTable_perform_of_error (registered : c.Registered e.registry) {err : StorageError}
    (failed : (c.perform e).1 = .error err) (name : String) :
    (c.perform e).2.database.openTable name = e.database.openTable name := by
  have transition := perform_transition registered
  generalize c.perform e = left at failed transition ⊢
  cases transition with
  | idle => rfl
  | refused m _ _ =>
      by_cases same : name = m.name
      · subst same
        exact Database.openTable_setTable_self ..
      · exact Database.openTable_setTable_of_ne _ _ same
  | _ => cases failed

/-- A model with a numbered key and a name that no two rows share. -/
def account : Model :=
  { name := "Account"
    attributes := [.identity "id", { name := "name", unique := true }] }

/-- An engine that stores one account. -/
def accounts : Engine :=
  ((create account [("name", .str "ada")] {}).perform
    (Engine.ofRegistry [("Account", account)])).2

/-- The second row is refused for its name, so the first is not stored either. -/
theorem openTable_bulkCreate_taken :
    let taken := bulkCreate account [[("name", .str "bob")], [("name", .str "ada")]] {}
    (taken.perform accounts).1 = .error (.validation ⟨"Validation error",
        [⟨"name", .unique, "name must be unique"⟩]⟩) ∧
      (taken.perform accounts).2.database.openTable "Account" =
        accounts.database.openTable "Account" := by
  refine ⟨rfl, openTable_perform_of_error (fun m about => ?_) rfl "Account"⟩
  cases about
  rfl

end Command

end RecordGraph
