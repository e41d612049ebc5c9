import RecordGraph.Proofs.Store.Transactions

/-!
# Closing a transaction after anything

An operation is whatever can be done with an engine or with a row of it. `Turn` says what
one does to the transactions: it opens one under a number that has never been given, closes
one, or leaves them as they are. So an open transaction keeps the database that it began
with through every run that does not close it, whatever other transactions are opened,
committed and rolled back meanwhile; and once it is closed it stays closed.
-/

namespace RecordGraph

/-- Anything that can be done with an engine or with a row of it. -/
inductive Interaction where
  | command (c : Command)
  | build (model : Model) (data : Record) (isNew : Bool)
  | findAll (model : Model) (request : Request.Find)
  | findOne (model : Model) (request : Request.Find)
  | count (model : Model) (request : Request.Find)
  | aggregate (model : Model) (column : String) (function : Request.Aggregate)
      (request : Request.Find)
  | reload (row : Row) (request : Request.Reload)

namespace Interaction

/-- The engine after an operation, be it carried out or refused. -/
def perform : Interaction → Engine → Engine
  | .command c, e => (c.perform e).2
  | .build model data isNew, e => (Engine.build model data isNew e).2
  | .findAll model request, e => (Engine.findAll model request e).2
  | .findOne model request, e => (Engine.findOne model request e).2
  | .count model request, e => (Engine.count model request e).2
  | .aggregate model column function request, e =>
    (Engine.aggregate model column function request e).2
  | .reload row request, e => (Linking.reload request row e).2

/-- The engine after operations one after the other. -/
def run (ops : List Interaction) (e : Engine) : Engine :=
  ops.foldl (fun e op => op.perform e) e

/-- The transaction that an operation is to close. -/
def closes? : Interaction → Option Nat
  | .command (.commit id) | .command (.rollback id) => some id
  | _ => none

end Interaction

namespace Engine

variable {base e e' : Engine} {id other : Nat} {d : Database}

section Lockstep

variable (m : Model)

theorem lockstep_create (data : Record) (request : Request.Write) :
    Lockstep (Within base) (create m data request) (create m data request) :=
  (lockstep_onTable _ _).bind fun record => lockstep_handOut m record

theorem lockstep_bulkCreate (rows : List Record) (request : Request.Write) :
    Lockstep (Within base) (bulkCreate m rows request) (bulkCreate m rows request) :=
  (lockstep_onTable _ _).bind fun records => .mapM (fun record => lockstep_handOut m record) records

theorem lockstep_upsert (values : Record) (request : Request.Write) :
    Lockstep (Within base) (upsert m values request) (upsert m values request) := by
  refine (lockstep_lift _).bind fun pk => ?_
  refine (lockstep_onTable _ _).bind fun result => ?_
  exact (lockstep_handOut m result.1).bind fun row => lockstep_pure (row, result.2)

theorem lockstep_destroy (request : Request.Destroy) :
    Lockstep (Within base) (destroy m request) (destroy m request) :=
  lockstep_onTable _ _

theorem lockstep_restore (request : Request.Destroy) :
    Lockstep (Within base) (restore m request) (restore m request) := by
  unfold restore
  split
  · exact lockstep_onTable _ _
  · exact lockstep_pure 0

theorem lockstep_truncate : Lockstep (Within base) (truncate m) (truncate m) :=
  lockstep_onTable _ _

theorem lockstep_dropTable : Lockstep (Within base) (dropTable m) (dropTable m) := by
  rintro e _ rfl
  exact ⟨rfl, rfl⟩

theorem lockstep_find (request : Request.Find) :
    Lockstep (Within base) (findAll m request) (findAll m request) :=
  lockstep_findAll m request request.transaction

end Lockstep

/-- Two engines have the same open transactions, and have given the same numbers. -/
structure SameTransactions (e e' : Engine) : Prop where
  snapshots : e'.snapshots = e.snapshots
  lastTransaction : e'.lastTransaction = e.lastTransaction

/-- Only what runs alike within the transactions of any engine is the same within its own. -/
theorem sameTransactions_of_within (within : e' = e'.within e) : SameTransactions e e' :=
  ⟨(congrArg snapshots within).trans rfl, (congrArg lastTransaction within).trans rfl⟩

theorem snapshot?_close_self : (e.close id).snapshot? id = none := by
  simp [snapshot?, close]

theorem snapshot?_close_of_ne (ne : id ≠ other) :
    (e.close other).snapshot? id = e.snapshot? id := by
  simp only [snapshot?, close, List.find?_filter]
  congr 2
  funext saved
  by_cases at_id : saved.1 = id
  · simp [at_id, ne]
  · simp [at_id]

theorem snapshot?_beginTransaction (ne : id ≠ e.lastTransaction + 1) :
    (beginTransaction e).2.snapshot? id = e.snapshot? id := by
  simp [snapshot?, beginTransaction, Ne.symm ne]

/-- What an operation does to the transactions. -/
inductive Turn (op : Interaction) (e : Engine) : Engine → Prop where
  | aside {e' : Engine} (same : SameTransactions e e') : Turn op e e'
  | opened (about : op = .command .beginTransaction) : Turn op e (beginTransaction e).2
  | closed (id : Nat) (about : op.closes? = some id) (d : Database) :
      Turn op e { e.close id with database := d }

theorem Turn.ofAction {α : Type} {op : Interaction} {x : Action Engine α}
    (alike : Lockstep (Within e) x x) (left : e' = (x e).2) : Turn op e e' :=
  left ▸ .aside (sameTransactions_of_within (alike e e rfl).2)

theorem Turn.ofRowAction {α : Type} {op : Interaction} {x : RowAction Engine α} {row : Row}
    (alike : RowLockstep (Within e) x x) (left : e' = (x row e).2) : Turn op e e' :=
  left ▸ .aside (sameTransactions_of_within (alike row e e rfl).2)

/-- A transaction is open, with the database to go back to. -/
structure Awaits (id : Nat) (d : Database) (e : Engine) : Prop where
  saved : e.snapshot? id = some d
  issued : e.Issued

/-- A transaction is not open, and its number will not be given again. -/
structure Spent (id : Nat) (e : Engine) : Prop where
  closed : e.snapshot? id = none
  given : id ≤ e.lastTransaction

theorem Issued.le_of_saved (issued : e.Issued) (saved : e.snapshot? id = some d) :
    id ≤ e.lastTransaction := by
  obtain ⟨entry, found, _⟩ := Option.map_eq_some_iff.mp saved
  have at_id : entry.1 = id := by simpa using List.find?_some found
  exact at_id ▸ issued entry (List.mem_of_find?_eq_some found)

theorem rollback_of_saved (saved : e.snapshot? id = some d) :
    rollback id e = (.ok (), { e.close id with database := d }) := by
  simp only [rollback, saved]

theorem commit_of_saved (saved : e.snapshot? id = some d) :
    commit id e = (.ok (), e.close id) := by
  simp only [commit, saved]

section Turn

variable {op : Interaction} (turn : Turn op e e')
include turn

theorem Turn.issued (issued : e.Issued) : e'.Issued := by
  cases turn with
  | aside same =>
      intro saved member
      rw [same.lastTransaction]
      exact issued saved (same.snapshots ▸ member)
  | opened => exact issued.opened
  | closed other => exact issued.close other

/-- An open transaction stays open, with its database, unless it is the one to be closed. -/
theorem Turn.awaits (other : op.closes? ≠ some id) (awaits : Awaits id d e) : Awaits id d e' := by
  refine ⟨?_, turn.issued awaits.issued⟩
  cases turn with
  | aside same => rw [snapshot?, same.snapshots, ← awaits.saved, snapshot?]
  | opened =>
      have earlier := awaits.issued.le_of_saved awaits.saved
      rw [snapshot?_beginTransaction (by omega), awaits.saved]
  | closed closing about =>
      have ne : id ≠ closing := fun same => other (same ▸ about)
      exact (snapshot?_close_of_ne ne).trans awaits.saved

/-- A closed transaction stays closed: a new one gets a number that is greater. -/
theorem Turn.spent (spent : Spent id e) : Spent id e' := by
  cases turn with
  | aside same =>
      refine ⟨?_, same.lastTransaction ▸ spent.given⟩
      rw [snapshot?, same.snapshots, ← spent.closed, snapshot?]
  | opened =>
      have given := spent.given
      refine ⟨?_, Nat.le_succ_of_le given⟩
      rw [snapshot?_beginTransaction (by omega), spent.closed]
  | closed closing =>
      refine ⟨?_, spent.given⟩
      by_cases same : id = closing
      · subst same
        exact snapshot?_close_self
      · exact (snapshot?_close_of_ne same).trans spent.closed

end Turn

theorem Awaits.spent (awaits : Awaits id d e) (d' : Database) :
    Spent id { e.close id with database := d' } :=
  ⟨snapshot?_close_self, awaits.issued.le_of_saved awaits.saved⟩

end Engine

open Engine

namespace Interaction

variable {e : Engine} {op : Interaction}

theorem turn_command (c : Command) : Turn (.command c) e (c.perform e).2 := by
  cases c with
  | create m data request => exact .ofAction (lockstep_create m data request) rfl
  | bulkCreate m rows request => exact .ofAction (lockstep_bulkCreate m rows request) rfl
  | update m values request =>
      exact .ofAction (lockstep_update m values request request.transaction) rfl
  | upsert m values request => exact .ofAction (lockstep_upsert m values request) rfl
  | destroy m request => exact .ofAction (lockstep_destroy m request) rfl
  | restore m request => exact .ofAction (lockstep_restore m request) rfl
  | truncate m => exact .ofAction (lockstep_truncate m) rfl
  | dropTable m => exact .ofAction (lockstep_dropTable m) rfl
  | beginTransaction => exact .opened rfl
  | commit id =>
      simp only [Command.perform, commit, outcome]
      cases e.snapshot? id with
      | none => exact .aside ⟨rfl, rfl⟩
      | some d => exact .closed id rfl e.database
  | rollback id =>
      simp only [Command.perform, rollback, outcome]
      cases e.snapshot? id with
      | none => exact .aside ⟨rfl, rfl⟩
      | some d => exact .closed id rfl d
  | save row validate => exact .ofRowAction (Linking.lockstep_save validate) rfl
  | setAssociation row label linked =>
      exact .ofRowAction (Linking.lockstep_setAssociation label linked) rfl

/-- Every operation opens a transaction, closes one, or leaves them all. -/
theorem perform_turn (op : Interaction) (e : Engine) : Turn op e (op.perform e) := by
  cases op with
  | command c => exact turn_command c
  | build m data isNew => exact .ofAction (lockstep_build m data isNew) rfl
  | findAll m request => exact .ofAction (lockstep_find m request) rfl
  | findOne m request =>
      refine .ofAction ((lockstep_find m { request with limit := some 1 }).bind ?_) rfl
      exact fun rows => lockstep_pure rows.head?
  | count m request =>
      refine .ofAction ((lockstep_find m { request with attributes := none }).bind ?_) rfl
      exact fun rows => lockstep_pure rows.length
  | aggregate m column function request =>
      refine .ofAction ((lockstep_find m { request with attributes := none }).bind ?_) rfl
      exact fun rows => lockstep_lift (summarize function (rows.filterMap (·.get? column)))
  | reload row request => exact .ofRowAction (Linking.lockstep_reload request) rfl

section Run

variable {ops : List Interaction} {id : Nat} {d : Database}

theorem issued_runAll (issued : e.Issued) : (run ops e).Issued := by
  induction ops generalizing e with
  | nil => exact issued
  | cons op rest ih => exact ih ((perform_turn op e).issued issued)

theorem awaits_run (others : ∀ op ∈ ops, op.closes? ≠ some id) (awaits : Awaits id d e) :
    Awaits id d (run ops e) := by
  induction ops generalizing e with
  | nil => exact awaits
  | cons op rest ih =>
      obtain ⟨first, others⟩ := List.forall_mem_cons.mp others
      exact ih others ((perform_turn op e).awaits first awaits)

theorem spent_run (spent : Spent id e) : Spent id (run ops e) := by
  induction ops generalizing e with
  | nil => exact spent
  | cons op rest ih => exact ih ((perform_turn op e).spent spent)

end Run

/-- However a run goes on, closing a transaction is refused and leaves the engine as it is. -/
def RefusesToClose (id : Nat) (e : Engine) : Prop :=
  ∀ after, let later := run after e
    commit id later = (.error (.transaction (.unknown id)), later) ∧
      rollback id later = (.error (.transaction (.unknown id)), later)

theorem refusesToClose_of_spent {id : Nat} (spent : Spent id e) : RefusesToClose id e := by
  intro after
  have closed : (run after e).snapshot? id = none := (spent_run spent).closed
  constructor
  · simp only [commit, closed]
  · simp only [rollback, closed]

/-- A transaction of a reachable engine can be closed after any operations that do not close
it. Rolled back it leaves the database as it was when the transaction began, and committed it
leaves the database as it is; either way it cannot be closed a second time. -/
theorem close_opened_once {r : Registry} {before between : List Interaction} {opened : Engine}
    {id : Nat} (begun : beginTransaction (run before (ofRegistry r)) = (.ok id, opened))
    (others : ∀ op ∈ between, op.closes? ≠ some id) :
    (∃ rolled, rollback id (run between opened) = (.ok (), rolled) ∧
      rolled.database = (run before (ofRegistry r)).database ∧ RefusesToClose id rolled) ∧
    ∃ committed, commit id (run between opened) = (.ok (), committed) ∧
      committed.database = (run between opened).database ∧ RefusesToClose id committed := by
  have issued : (run before (ofRegistry r)).Issued := issued_runAll (issued_ofRegistry r)
  generalize run before (ofRegistry r) = e at begun issued
  have start : Awaits id e.database opened := by
    cases begun
    exact ⟨snapshot?_opened e _, issued.opened⟩
  have awaits := awaits_run others start
  constructor
  · refine ⟨_, rollback_of_saved awaits.saved, rfl, ?_⟩
    exact refusesToClose_of_spent (awaits.spent e.database)
  · refine ⟨_, commit_of_saved awaits.saved, rfl, ?_⟩
    exact refusesToClose_of_spent (awaits.spent (run between opened).database)

open Command (account accounts)

/-- Within the first transaction a row is stored; a second one loses another row when it is
rolled back, and a third one the table when it is committed. -/
def meanwhile : List Interaction :=
  [.command (.create account [("name", .str "bob")] {}),
    .command .beginTransaction,
    .command (.create account [("name", .str "eve")] {}),
    .command (.rollback 2),
    .findAll account {},
    .command .beginTransaction,
    .command (.dropTable account),
    .command (.commit 3)]

/-- Rolled back after all this, the first transaction brings back the one account. -/
theorem close_opened_once_nested :
    (∀ op ∈ meanwhile, op.closes? ≠ some 1) ∧
    ∃ rolled, rollback 1 (run meanwhile (beginTransaction accounts).2) = (.ok (), rolled) ∧
      rolled.storedRows "Account" = 1 ∧ RefusesToClose 1 rolled := by
  have others : ∀ op ∈ meanwhile, op.closes? ≠ some 1 := by
    simp [meanwhile, closes?]
  have once := @close_opened_once [("Account", account)]
    [.command (.create account [("name", .str "ada")] {})] meanwhile
    (beginTransaction accounts).2 1 rfl others
  obtain ⟨rolled, run, database, refuses⟩ := once.1
  refine ⟨others, rolled, run, ?_, refuses⟩
  rw [storedRows, database]
  rfl

end Interaction

end RecordGraph
