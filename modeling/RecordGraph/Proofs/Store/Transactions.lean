import RecordGraph.Proofs.Store.Command
import RecordGraph.Proofs.Store.Lockstep

/-!
# What transactions do not do

The engine is not isolated: an operation works on the one database there is, whatever
transactions are open. So between opening and closing a transaction nothing looks at the
databases to go back to or changes them. An engine and the same engine within the
transactions of another one run in lockstep.

Transactions are numbered in the order in which they are opened. No transaction that is
open has a number that is yet to be given, so a new one is not confused with any other.
-/

namespace RecordGraph

namespace Loading

variable {r : Registry} {d : Database} {source : Model} {request : Request.Find}
variable {transaction : Option Nat}

theorem matching_transaction (records : List Record) :
    matching r d source { request with transaction } records =
      matching r d source request records := by
  induction records with
  | nil => rfl
  | cons record rest ih =>
      rw [matching, matching, ih]
      rfl

/-- What a request asks for does not depend on the transaction that it names. -/
theorem select_transaction :
    select r d source { request with transaction } = select r d source request := by
  unfold select
  simp only [matching_transaction]

end Loading

namespace Engine

variable {α : Type} {base : Engine}

/-- An engine within the transactions of another one. -/
def within (e base : Engine) : Engine :=
  { e with snapshots := base.snapshots, lastTransaction := base.lastTransaction }

/-- The same engine within the transactions of a given one. -/
def Within (base e f : Engine) : Prop :=
  f = e.within base

theorem lockstep_onTable (name : String) (work : Table → Except StorageError (α × Table)) :
    Lockstep (Within base) (onTable name work) (onTable name work) := by
  rintro e _ rfl
  have opens : (e.within base).database.openTable name = e.database.openTable name := rfl
  cases done : work (e.database.openTable name) with
  | error err =>
      rw [onTable_run_error done, onTable_run_error (opens ▸ done)]
      exact ⟨rfl, rfl⟩
  | ok answer =>
      rw [onTable_run_ok done, onTable_run_ok (opens ▸ done)]
      exact ⟨rfl, rfl⟩

theorem lockstep_handOut (m : Model) (data : Record) :
    Lockstep (Within base) (handOut m data) (handOut m data) := by
  rintro e _ rfl
  have known : (e.within base).registry = e.registry := rfl
  rw [handOut, Action.bind_run_ok (Action.get_run e), Action.bind_run_ok (Action.get_run _), known]
  exact (lockstep_lift _).bind (fun _ => lockstep_pure _) e _ rfl

theorem lockstep_build (m : Model) (data : Record) (isNew : Bool) :
    Lockstep (Within base) (build m data isNew) (build m data isNew) :=
  (lockstep_handOut m data).bind fun _ => lockstep_pure _

theorem lockstep_update (m : Model) (values : Record) (request : Request.Update)
    (transaction : Option Nat) :
    Lockstep (Within base) (update m values request)
      (update m values { request with transaction }) :=
  lockstep_onTable _ _

theorem lockstep_findAll (m : Model) (request : Request.Find) (transaction : Option Nat) :
    Lockstep (Within base) (findAll m request) (findAll m { request with transaction }) := by
  rintro e _ rfl
  have known : (e.within base).registry = e.registry := rfl
  have stored : (e.within base).database = e.database := rfl
  rw [findAll, findAll, Action.bind_run_ok (Action.get_run e),
    Action.bind_run_ok (Action.get_run _), known, stored]
  simp only [Loading.select_transaction]
  exact (lockstep_lift _).bind (fun _ => lockstep_lift _) e _ rfl

end Engine

namespace Linking

open Engine (Within)

variable {base : Engine}

theorem lockstep_save (validate : Bool) :
    RowLockstep (Within base) (save validate) (save validate) := by
  refine rowLockstep_row.bind fun row => ?_
  split
  · exact (Engine.lockstep_onTable _ _).ofAction.bind fun _ => rowLockstep_modifyRow _
  · exact (Engine.lockstep_onTable _ _).ofAction.bind fun _ => rowLockstep_modifyRow _

theorem lockstep_connect (label : String) (linked : Linked Row) :
    RowLockstep (Within base) (connect label linked) (connect label linked) := by
  rintro r e _ rfl
  have known : (e.within base).registry = e.registry := rfl
  rw [connect, RowAction.bind_run_ok (RowAction.row_run e),
    RowAction.bind_run_ok (RowAction.row_run (e.within base)),
    RowAction.bind_run_ok (RowAction.ofAction_run get e),
    RowAction.bind_run_ok (RowAction.ofAction_run get (e.within base)), known]
  refine ((rowLockstep_lift _).bind fun a => ?_) r e _ rfl
  refine (rowLockstep_lift _).bind fun target => ?_
  refine (rowLockstep_lift _).bind fun pk => ?_
  refine (rowLockstep_lift _).bind fun keys => ?_
  cases a.kind with
  | belongsTo =>
      dsimp only
      refine (rowLockstep_modifyRow _).bind fun _ => ?_
      refine rowLockstep_row.bind fun changed => ?_
      refine (rowLockstep_lift _).bind fun key => ?_
      exact (Engine.lockstep_onTable _ _).ofAction.bind fun _ => rowLockstep_pure _
  | hasOne | hasMany =>
      dsimp only
      exact (rowLockstep_lift _).bind fun key => (Engine.lockstep_onTable _ _).ofAction
  | belongsToMany =>
      dsimp only
      refine (rowLockstep_lift _).bind fun key => ?_
      cases a.through with
      | none => exact rowLockstep_throw _
      | some through => exact (Engine.lockstep_onTable _ _).ofAction

theorem lockstep_setAssociation (label : String) (linked : Linked Row) :
    RowLockstep (Within base) (setAssociation label linked) (setAssociation label linked) :=
  (lockstep_connect label linked).bind fun _ => rowLockstep_modifyRow _

theorem lockstep_reload (request : Request.Reload) :
    RowLockstep (Within base) (reload request) (reload request) := by
  rintro r e _ rfl
  have known : (e.within base).registry = e.registry := rfl
  have stored : (e.within base).database = e.database := rfl
  rw [reload, RowAction.bind_run_ok (RowAction.row_run e),
    RowAction.bind_run_ok (RowAction.row_run (e.within base)),
    RowAction.bind_run_ok (RowAction.ofAction_run get e),
    RowAction.bind_run_ok (RowAction.ofAction_run get (e.within base)), known, stored]
  refine ((rowLockstep_lift _).bind fun key => ?_) r e _ rfl
  refine (rowLockstep_lift _).bind fun pk => ?_
  split
  · exact rowLockstep_throw _
  · exact (rowLockstep_lift _).bind fun _ => rowLockstep_modifyRow _

end Linking

namespace Engine

variable {e : Engine}

/-- Every open transaction has a number that has been given. -/
def Issued (e : Engine) : Prop :=
  ∀ saved ∈ e.snapshots, saved.1 ≤ e.lastTransaction

theorem issued_ofRegistry (r : Registry) : (ofRegistry r).Issued := by
  intro saved member
  cases member

theorem Issued.close (issued : e.Issued) (id : Nat) : (e.close id).Issued :=
  fun saved member => issued saved (List.mem_filter.mp member).1

theorem Issued.opened (issued : e.Issued) : (beginTransaction e).2.Issued := by
  intro saved member
  rcases List.mem_cons.mp member with rfl | earlier
  · exact Nat.le_refl _
  · exact Nat.le_succ_of_le (issued saved earlier)

theorem snapshot?_opened (e after : Engine) :
    (after.within (beginTransaction e).2).snapshot? (e.lastTransaction + 1) = some e.database := by
  simp [snapshot?, within, beginTransaction]

/-- What an engine has become in its next transaction, now that this is closed. -/
def settle (e after : Engine) : Engine :=
  { after with
    snapshots := e.snapshots.filter fun saved => saved.1 ≠ e.lastTransaction + 1
    lastTransaction := e.lastTransaction + 1 }

theorem close_opened (e after : Engine) :
    (after.within (beginTransaction e).2).close (e.lastTransaction + 1) = e.settle after := by
  rw [close, within, beginTransaction, settle]
  simp

/-- What has happened in a transaction stays when it is committed. -/
theorem commit_opened (e after : Engine) :
    commit (e.lastTransaction + 1) (after.within (beginTransaction e).2) =
      (.ok (), e.settle after) := by
  rw [commit, snapshot?_opened, ← close_opened]

/-- Rolling a transaction back brings back the database that it began with. -/
theorem rollback_opened (e after : Engine) :
    rollback (e.lastTransaction + 1) (after.within (beginTransaction e).2) =
      (.ok (), { e.settle after with database := e.database }) := by
  rw [rollback, snapshot?_opened, ← close_opened]

/-- Closing the last transaction that was opened leaves the ones before it. -/
theorem Issued.settle (issued : e.Issued) (after : Engine) :
    (e.settle after).snapshots = e.snapshots := by
  refine List.filter_eq_self.mpr fun saved member => ?_
  have earlier := issued saved member
  exact decide_eq_true (by omega)

end Engine

namespace Command

variable {e : Engine} {c : Command}

theorem issued_perform (registered : c.Registered e.registry) (issued : e.Issued) :
    (c.perform e).2.Issued := by
  have transition := perform_transition registered
  generalize c.perform e = left at transition ⊢
  cases transition with
  | opened => exact issued.opened
  | committed id => exact issued.close id
  | rolledBack id => exact issued.close id
  | _ => exact issued

theorem issued_run {cs : List Command} (registered : ∀ c ∈ cs, c.Registered e.registry)
    (issued : e.Issued) : (run cs e).Issued := by
  induction cs generalizing e with
  | nil => exact issued
  | cons c rest ih =>
      obtain ⟨first, others⟩ := List.forall_mem_cons.mp registered
      rw [← registry_perform first] at others
      exact ih others (issued_perform first issued)

end Command

end RecordGraph
