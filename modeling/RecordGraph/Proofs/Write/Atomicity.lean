import RecordGraph.Proofs.Store.Replacement
import RecordGraph.Proofs.Store.Selecting
import RecordGraph.Proofs.Store.Transactions
import RecordGraph.Proofs.Write.Run
import RecordGraph.Write.Repository

/-!
# Atomic updates

An atomic update does what the update does that is not atomic, within a transaction of its
own: storing rows, reading them again and writing the related rows at every depth go on
without a look at the transactions, and the transaction that a request names makes no
difference to the engine. So both run in lockstep, up to the last step. There the atomic
one keeps what has happened, if nothing failed, or goes back to the database it started
from; either way its transaction is closed and no other one is.
-/

namespace RecordGraph

section Lockstep

variable {σ α : Type} {R : σ → σ → Prop}

theorem Lockstep.ofAction_run {x y : Action σ α} (failure : StorageError → Failure)
    (h : Lockstep R x y) : Lockstep R (Run.ofAction failure x) (Run.ofAction failure y) := by
  intro s t related
  obtain ⟨same, after⟩ := h s t related
  exact ⟨congrArg (Except.mapError failure) same, after⟩

theorem RowLockstep.onRow {x y : RowRun σ Unit} (row : Row) (h : RowLockstep R x y) :
    Lockstep R (Run.onRow row x) (Run.onRow row y) := by
  intro s t related
  obtain ⟨same, after⟩ := h row s t related
  exact ⟨congrArg (fun done : Except Failure Unit × Row => done.1.map fun _ => done.2) same, after⟩

theorem RowLockstep.ofAction_run {x y : RowAction σ α} (failure : StorageError → Failure)
    (h : RowLockstep R x y) : RowLockstep R (RowRun.ofAction failure x)
      (RowRun.ofAction failure y) := by
  intro r s t related
  obtain ⟨same, after⟩ := h r s t related
  exact ⟨congrArg (fun done : Except StorageError α × Row => (done.1.mapError failure, done.2)) same,
    after⟩

theorem Lockstep.ofRun {x y : Run σ α} (h : Lockstep R x y) :
    RowLockstep R (RowRun.ofRun x) (RowRun.ofRun y) := by
  intro r s t related
  obtain ⟨same, after⟩ := h s t related
  exact ⟨congrArg (·, r) same, after⟩

theorem Run.attempt_run {x : Run σ α} {result : Except Failure α} {s s' : σ}
    (h : x s = (result, s')) : Run.attempt x s = (.ok result, s') := by
  rw [Run.attempt, h]

theorem rowLockstep_runRow : RowLockstep R (RowRun.row : RowRun σ Row) RowRun.row :=
  fun _ _ _ related => ⟨rfl, related⟩

theorem RowLockstep.mapFailure {x y : RowRun σ α} (f : Failure → Failure)
    (h : RowLockstep R x y) : RowLockstep R (RowRun.mapFailure f x) (RowRun.mapFailure f y) := by
  intro r s t related
  obtain ⟨same, after⟩ := h r s t related
  exact ⟨congrArg (fun done : Except Failure α × Row => (done.1.mapError f, done.2)) same, after⟩

end Lockstep

open Engine (Within)

namespace Cascade

variable {base : Engine} {options : PersistOptions} {transaction : Option Nat}

theorem lockstep_supply (target : Model) (pk : String) (depth : Nat) (stamp : Stamp) (item : Item) :
    Lockstep (Within base) (supply target pk depth stamp item)
      (supply target pk depth stamp item) := by
  cases item with
  | row row => exact lockstep_pure _
  | record fields =>
      exact ((Engine.lockstep_build _ _ _).ofAction_run _).bind fun _ => lockstep_pure _
  | key key =>
      exact ((Engine.lockstep_build _ _ _).ofAction_run _).bind fun _ => lockstep_pure _

/-- What is done for the rows below a supplied one, without and with a transaction. -/
abbrev Descends (base : Engine) (x y : Model → Draft → WriteMode → RowRun Engine Unit) : Prop :=
  ∀ target draft mode, RowLockstep (Within base) (x target draft mode) (y target draft mode)

theorem lockstep_coerce {x y : Model → Draft → WriteMode → RowRun Engine Unit} (edge : Edge)
    (depth : Nat) (descends : Descends base x y) (target : Model) (stamp : Stamp) (item : Item) :
    Lockstep (Within base) (coerce options edge depth x target stamp item)
      (coerce { options with transaction } edge depth y target stamp item) := by
  refine (lockstep_lift _).bind fun pk => ?_
  refine (lockstep_supply target pk depth stamp item).bind fun supplied => ?_
  obtain ⟨row, record⟩ := supplied
  dsimp only
  split
  · exact lockstep_pure _
  · refine RowLockstep.onRow _ (((Linking.lockstep_save _).ofAction_run _).bind fun _ => ?_)
    split
    · exact (descends target _ _).mapFailure _
    · exact rowLockstep_pure _

theorem lockstep_writeEdge {x y : Model → Draft → WriteMode → RowRun Engine Unit} (r : Registry)
    (model : Model) (draft : Draft) (mode : WriteMode) (pk : String) (edge : Edge) (depth : Nat)
    (descends : Descends base x y) :
    RowLockstep (Within base) (writeEdge r options model draft mode pk edge depth x)
      (writeEdge r { options with transaction } model draft mode pk edge depth y) := by
  unfold writeEdge
  split
  · split
    · exact rowLockstep_pure _
    · dsimp only
      split
      · exact rowLockstep_pure _
      · refine rowLockstep_runRow.bind fun row => ?_
        refine (Lockstep.mapM (fun item => ?_) _).ofRun.bind fun items => ?_
        · exact lockstep_coerce edge depth descends _ _ item
        · exact (Linking.lockstep_setAssociation _ _).ofAction_run _
  · exact rowLockstep_pure _

theorem lockstep_enclose {x y : String → RowRun Engine Unit} (model : Model)
    (includes : List Include) (walks : ∀ pk, RowLockstep (Within base) (x pk) (y pk)) :
    RowLockstep (Within base) (enclose options model includes x)
      (enclose { options with transaction } model includes y) := by
  unfold enclose
  split
  · exact rowLockstep_pure _
  · refine (rowLockstep_lift _).bind fun pk => ?_
    refine (walks pk).bind fun _ => ?_
    exact (Linking.lockstep_reload _).ofAction_run _

mutual

theorem lockstep_writeAll (r : Registry) (model : Model) (draft : Draft) (mode : WriteMode)
    (pk : String) : ∀ includes : List Include,
      RowLockstep (Within base) (writeAll r options model draft mode pk includes)
        (writeAll r { options with transaction } model draft mode pk includes)
  | [] => rowLockstep_pure _
  | i :: rest => by
      rw [writeAll, writeAll]
      exact (lockstep_writeOne r model draft mode pk i).bind fun _ =>
        lockstep_writeAll r model draft mode pk rest

theorem lockstep_writeOne (r : Registry) (model : Model) (draft : Draft) (mode : WriteMode)
    (pk : String) : ∀ i : Include,
      RowLockstep (Within base) (writeOne r options model draft mode pk i)
        (writeOne r { options with transaction } model draft mode pk i)
  | .plain edge => by
      rw [writeOne, writeOne]
      exact lockstep_writeEdge r model draft mode pk edge 0 fun _ _ _ => rowLockstep_pure _
  | .nested edge _ children => by
      rw [writeOne, writeOne]
      refine lockstep_writeEdge r model draft mode pk edge _ fun target nested nestedMode => ?_
      exact lockstep_enclose target children fun nestedPk =>
        lockstep_writeAll r target nested nestedMode nestedPk children

end

end Cascade

namespace Repository

variable {base : Engine} {repo : Repository} {options : PersistOptions} {transaction : Option Nat}

theorem lockstep_cascade (q : Query) (draft : Draft) (mode : WriteMode) (row : Row) :
    Lockstep (Within base) (repo.cascade q draft mode options row)
      (repo.cascade q draft mode { options with transaction } row) := by
  unfold cascade
  dsimp only
  split
  · refine (Cascade.lockstep_enclose _ _ fun pk => ?_).onRow row
    exact Cascade.lockstep_writeAll _ _ draft mode pk _
  · exact lockstep_pure row

theorem lockstep_updateRows (q : Query) (draft : Draft) :
    Lockstep (Within base) (repo.updateRows q draft options)
      (repo.updateRows q draft { options with transaction }) := by
  unfold updateRows
  dsimp only
  refine ((Engine.lockstep_update _ _ _ _).ofAction_run _).optional_bind ?_
  refine ((Engine.lockstep_findAll _ _ _).ofAction_run _).bind fun rows => ?_
  exact Lockstep.mapM (lockstep_cascade q draft .update) rows

/-- Updating within a transaction that has just been opened. -/
theorem updateRows_opened (repo : Repository) (options : PersistOptions) (id : Option Nat)
    (q : Query) (draft : Draft) (e : Engine) :
    repo.updateRows q draft { options with transaction := id } (Engine.beginTransaction e).2 =
      ((repo.updateRows q draft options e).1,
        (repo.updateRows q draft options e).2.within (Engine.beginTransaction e).2) := by
  have lockstep : Lockstep (Within (Engine.beginTransaction e).2)
      (repo.updateRows q draft options)
      (repo.updateRows q draft { options with transaction := id }) :=
    lockstep_updateRows q draft
  obtain ⟨same, after⟩ := lockstep e (Engine.beginTransaction e).2 rfl
  exact Prod.ext same.symm after

/-- An atomic update leaves what the update in it leaves, or the database as it was. -/
theorem update_run (transactional : repo.updateMode = .transactional)
    (free : options.transaction = none) (q : Query) (draft : Draft) (e : Engine) :
    repo.update q draft options e =
      match repo.updateRows q draft options e with
      | (.ok rows, after) => (.ok rows, e.settle after)
      | (.error failure, after) =>
        (.error failure, { e.settle after with database := e.database }) := by
  have atomic : ¬ (repo.updateMode = .detached ∨ options.transaction.isSome = true) := by
    simp [transactional, free]
  have opens :
      repo.beginTransaction e = (.ok (e.lastTransaction + 1), (Engine.beginTransaction e).2) := rfl
  have updates := updateRows_opened repo options (some (e.lastTransaction + 1)) q draft e
  unfold update
  rw [if_neg atomic, Action.bind_run_ok opens, Action.bind_run_ok (Run.attempt_run updates)]
  generalize repo.updateRows q draft options e = run
  obtain ⟨result, after⟩ := run
  cases result with
  | ok rows =>
      exact Action.bind_run_ok (Run.ofAction_ok_iff.mpr (Engine.commit_opened e after))
  | error failure =>
      exact Action.bind_run_ok
        (Run.attempt_run (Run.ofAction_ok_iff.mpr (Engine.rollback_opened e after)))

/-- An atomic update without a transaction of the caller does all of what the update does
that is not atomic, or nothing. It answers the same. If that is a failure, at whatever
depth of the related rows, the database is as it was; if it is rows, the database is the one
that the other update leaves. The transactions that are open are those that were. -/
theorem update_atomic (repo : Repository) (q : Query) (draft : Draft) (options : PersistOptions)
    (e : Engine) (transactional : repo.updateMode = .transactional)
    (free : options.transaction = none) :
    let atomic := repo.update q draft options e
    let detached := ({ repo with updateMode := .detached } : Repository).update q draft options e
    atomic.1 = detached.1 ∧
      (∀ failure, atomic.1 = .error failure → atomic.2.database = e.database) ∧
      (∀ rows, atomic.1 = .ok rows → atomic.2.database = detached.2.database) ∧
      (e.Issued → atomic.2.snapshots = e.snapshots) := by
  intro atomic detached
  have plain : detached = repo.updateRows q draft options e := rfl
  have run : atomic = _ := update_run transactional free q draft e
  rw [plain, run]
  generalize repo.updateRows q draft options e = left
  obtain ⟨result, after⟩ := left
  cases result with
  | ok rows =>
      refine ⟨rfl, ?_, fun _ _ => rfl, fun issued => issued.settle after⟩
      intro failure failed
      cases failed
  | error failure =>
      refine ⟨rfl, fun _ _ => rfl, ?_, fun issued => issued.settle after⟩
      intro rows done
      cases done

section Shelf

open Linking (author book library shelf)

/-- Access to the authors of the shelf. -/
def authors (updateMode : UpdateMode) : Repository :=
  { registry := library, model := author, updateMode }

/-- All authors with their books. -/
def withBooks : Query where
  registry := library
  model := author
  descriptor :=
    { selection := { model := "Author" }
      includes := [.plain { target := "Book", label := "books" }] }

/-- A new book, and one that is said to be stored and is not. -/
def lostBook : Draft where
  associations := [("books", .many
    [.record [("authorId", .null)], .record [("authorId", .null), ("id", .ofInt 9)]])]

/-- All authors are found, in the order of their table. -/
theorem findAll_shelf :
    Engine.findAll author {} shelf =
      (.ok [Loading.plainRow author [("id", .ofInt 9007199254740992)],
        Loading.plainRow author [("id", .ofInt 9007199254740993)]], shelf) :=
  (Engine.findAll_unsorted rfl rfl rfl rfl rfl).trans rfl

/-- The first book is stored before the second one is not found. Only the update that is
not atomic leaves it behind. -/
theorem update_atomic_lostBook :
    let atomic := (authors .transactional).update withBooks lostBook {} shelf
    let detached := (authors .detached).update withBooks lostBook {} shelf
    atomic.1 = detached.1 ∧ atomic.2.database = shelf.database ∧
      atomic.2.snapshots = shelf.snapshots ∧ detached.2.storedRows "Book" = 3 := by
  have issued : shelf.Issued := by
    refine Command.issued_run ?_ (Engine.issued_ofRegistry library)
    simp [Command.Registered, Command.model?, Engine.ofRegistry, library, author, book]
  have asked : (authors .detached).ask (Backend.findAll author {}) shelf = (.ok _, shelf) :=
    Run.ofAction_ok_iff.mpr findAll_shelf
  have lost : (authors .detached).update withBooks lostBook {} shelf =
      List.mapM ((authors .detached).cascade withBooks lostBook .update {}) _ shelf :=
    Action.bind_run_ok asked
  have failed : ((authors .detached).update withBooks lostBook {} shelf).1 =
      .error (.storage .notFound) := by
    rw [lost]
    rfl
  have stored : ((authors .detached).update withBooks lostBook {} shelf).2.storedRows "Book" = 3 := by
    rw [lost]
    rfl
  obtain ⟨same, undone, _, reopened⟩ :=
    update_atomic (authors .transactional) withBooks lostBook {} shelf rfl rfl
  exact ⟨same, undone _ (same.trans failed), reopened issued, stored⟩

end Shelf

end Repository

end RecordGraph
