import RecordGraph.Proofs.Store.Loading
import RecordGraph.Proofs.Store.Command

/-!
# What commands write, and with what

`Command.Writes` refines the steps that a table may take: it says which of them a command
takes, and with which of the data that it is given. `Command.Leaves` lists the engines that
a command may leave which connects no rows. A property of one table that holds of the empty
table is then followed through any run from what each kind of write does to it, also into
the databases that an open transaction may bring back.
-/

namespace RecordGraph

namespace Engine

variable {e : Engine} {m : Model} {name : String} {P : Table → Prop}

/-- A row to write over is the one with the key of the record. -/
theorem existing?_some {values : Record} {t : Table} {key : String} {index : Nat}
    (found : existing? m key values t = .ok (some index)) :
    ∃ v, Value.present? (values.get? key) = some v ∧ t.position? m v = .ok (some index) := by
  unfold existing? at found
  cases given : Value.present? (values.get? key) with
  | none =>
      rw [given] at found
      cases found
  | some v =>
      rw [given] at found
      exact ⟨v, rfl, found⟩

/-- A property of the table of a name, now and wherever a transaction may go back to. -/
structure Everywhere (name : String) (P : Table → Prop) (e : Engine) : Prop where
  current : P (e.database.openTable name)
  snapshots : ∀ saved ∈ e.snapshots, P (saved.2.openTable name)

namespace Everywhere

theorem ofRegistry (r : Registry) (empty : P {}) : (ofRegistry r).Everywhere name P where
  current := empty
  snapshots _ member := nomatch member

theorem setTable {other : String} {t : Table} (everywhere : e.Everywhere name P)
    (table : other = name → P t) : (e.setTable other t).Everywhere name P where
  current := by
    by_cases same : name = other
    · subst same
      exact (Database.openTable_setTable_self e.database name t).symm ▸ table rfl
    · exact (Database.openTable_setTable_of_ne e.database t same).symm ▸ everywhere.current
  snapshots := everywhere.snapshots

/-- Where a table is forgotten, it is as if it was empty. -/
theorem dropTable {other : String} (everywhere : e.Everywhere name P) (empty : P {}) :
    ({ e with database := e.database.dropTable other } : Engine).Everywhere name P where
  current := by
    rw [Database.openTable, Database.dropTable, Dict.get?_erase]
    split
    · exact empty
    · exact everywhere.current
  snapshots := everywhere.snapshots

theorem snapshot {id : Nat} {d : Database} (everywhere : e.Everywhere name P)
    (found : e.snapshot? id = some d) : P (d.openTable name) := by
  obtain ⟨saved, first, rfl⟩ := Option.map_eq_some_iff.mp found
  exact everywhere.snapshots saved (List.mem_of_find?_eq_some first)

theorem close {id : Nat} (everywhere : e.Everywhere name P) :
    (e.close id).Everywhere name P where
  current := everywhere.current
  snapshots saved member := everywhere.snapshots saved (List.mem_filter.mp member).1

end Everywhere

end Engine

namespace Command

/-- What a command makes of the table of its model, if it is not refused. -/
inductive Writes (t : Table) : Command → Table → Prop where
  | create {m data request record t'}
      (done : t.insert m request.validate data = .ok (record, t')) :
      Writes t (.create m data request) t'
  | bulkCreate {m rows request records t'}
      (done : t.insertAll m request.validate rows = .ok (records, t')) :
      Writes t (.bulkCreate m rows request) t'
  | update {m values request places t'}
      (matched : t.matching request.filter false request.limit = .ok places)
      (done : t.updateMany m request.validate places values = .ok t') :
      Writes t (.update m values request) t'
  | upsertNew {m values request record t'}
      (done : t.insert m request.validate values = .ok (record, t')) :
      Writes t (.upsert m values request) t'
  /-- The record is written over the row with its primary key. -/
  | upsertOver {m values request pk key index record t'}
      (named : Loading.primaryKey m = .ok pk)
      (given : Value.present? (values.get? pk) = some key)
      (place : t.position? m key = .ok (some index))
      (done : t.updateAt m request.validate index values = .ok (record, t')) :
      Writes t (.upsert m values request) t'
  | destroyMarked {m request} (places : List Nat) :
      Writes t (.destroy m request) (t.setHidden true places)
  | destroyRemoved {m request} (places : List Nat) :
      Writes t (.destroy m request) (t.remove places)
  | restore {m request} (places : List Nat) :
      Writes t (.restore m request) (t.setHidden false places)
  | truncate {m} : Writes t (.truncate m) t.clear
  | saveNew {row validate record t'}
      (done : t.insert row.model validate row.data = .ok (record, t')) :
      Writes t (.save row validate) t'
  /-- The row is written over the stored one with its primary key. -/
  | saveOver {row validate pk key index record t'}
      (named : Loading.primaryKey row.model = .ok pk)
      (given : Value.present? (row.get? pk) = some key)
      (place : t.position? row.model key = .ok (some index))
      (done : t.updateAt row.model validate index row.data = .ok (record, t')) :
      Writes t (.save row validate) t'

/-- What a command may leave of the engine if it connects no rows. -/
inductive Leaves (e : Engine) (c : Command) : Engine → Prop where
  | idle : Leaves e c e
  | refused (m : Model) (about : c.model? = some m) :
      Leaves e c (e.setTable m.name (e.database.openTable m.name))
  | wrote (m : Model) (about : c.model? = some m) {t : Table}
      (writes : Writes (e.database.openTable m.name) c t) : Leaves e c (e.setTable m.name t)
  | dropped (m : Model) : Leaves e c { e with database := e.database.dropTable m.name }
  | opened (id : Nat) : Leaves e c { e with
      lastTransaction := id
      snapshots := (id, e.database) :: e.snapshots }
  | committed (id : Nat) : Leaves e c (e.close id)
  | rolledBack (id : Nat) {d : Database} (kept : e.snapshot? id = some d) :
      Leaves e c { e.close id with database := d }

variable {e : Engine} {c : Command} {m : Model}

/-- A record goes over the row with its key, or into a new row if there is none. -/
theorem writes_upsert {pk : String} {values : Record} {request : Request.Write} {t t' : Table}
    {answer : Record × Bool} (named : Loading.primaryKey m = .ok pk)
    (done : (do
      match ← Engine.existing? m pk values t with
      | some index =>
        let (record, changed) ← t.updateAt m request.validate index values
        pure ((record, false), changed)
      | none =>
        let (record, changed) ← t.insert m request.validate values
        pure ((record, true), changed)) = Except.ok (answer, t')) :
    Writes t (.upsert m values request) t' := by
  obtain ⟨place, found, done⟩ := bind_eq_ok_iff.mp done
  cases place with
  | none =>
      obtain ⟨⟨record, changed⟩, written, last⟩ := bind_eq_ok_iff.mp done
      cases last
      exact .upsertNew written
  | some index =>
      obtain ⟨⟨record, changed⟩, written, last⟩ := bind_eq_ok_iff.mp done
      cases last
      obtain ⟨key, given, place⟩ := Engine.existing?_some found
      exact .upsertOver named given place written

namespace Leaves

theorem onTable {α : Type} {work : Table → Except StorageError (α × Table)} (about : c.model? = some m)
    (writes : ∀ a t, work (e.database.openTable m.name) = .ok (a, t) →
      Writes (e.database.openTable m.name) c t) : Leaves e c (Engine.onTable m.name work e).2 := by
  cases done : work (e.database.openTable m.name) with
  | error err =>
      rw [Engine.onTable_run_error done]
      exact .refused m about
  | ok answer =>
      rw [Engine.onTable_run_ok done]
      exact .wrote m about (writes answer.1 answer.2 done)

theorem create (data : Record) (request : Request.Write) :
    Leaves e (.create m data request) (Engine.create m data request e).2 := by
  rw [Engine.create, Action.bind_leaves fun record e => Engine.handOut_leaves m record e]
  exact onTable rfl fun _ _ done => .create done

theorem bulkCreate (rows : List Record) (request : Request.Write) :
    Leaves e (.bulkCreate m rows request) (Engine.bulkCreate m rows request e).2 := by
  rw [Engine.bulkCreate, Action.bind_leaves (Action.mapM_leaves (Engine.handOut_leaves m))]
  exact onTable rfl fun _ _ done => .bulkCreate done

theorem update (values : Record) (request : Request.Update) :
    Leaves e (.update m values request) (Engine.update m values request e).2 := by
  refine onTable rfl fun _ _ done => ?_
  obtain ⟨places, matched, done⟩ := bind_eq_ok_iff.mp done
  obtain ⟨changed, written, last⟩ := bind_eq_ok_iff.mp done
  cases last
  exact .update matched written

theorem upsert (values : Record) (request : Request.Write) :
    Leaves e (.upsert m values request) (Engine.upsert m values request e).2 := by
  rw [Engine.upsert]
  cases named : Loading.primaryKey m with
  | error err =>
      rw [Action.bind_run_error (Action.lift_run _ e)]
      exact .idle
  | ok pk =>
      rw [Action.bind_run_ok (Action.lift_run _ e), Action.bind_leaves]
      · exact onTable rfl fun _ _ done => writes_upsert named done
      · rintro ⟨record, created⟩ e
        exact (Action.bind_leaves fun _ _ => rfl).trans (Engine.handOut_leaves m record e)

theorem destroy (request : Request.Destroy) :
    Leaves e (.destroy m request) (Engine.destroy m request e).2 := by
  refine onTable rfl fun _ _ done => ?_
  obtain ⟨places, _, last⟩ := bind_eq_ok_iff.mp done
  cases last
  split
  · exact .destroyMarked places
  · exact .destroyRemoved places

theorem restore (request : Request.Destroy) :
    Leaves e (.restore m request) (Engine.restore m request e).2 := by
  unfold Engine.restore
  split
  · refine onTable rfl fun _ _ done => ?_
    obtain ⟨places, _, last⟩ := bind_eq_ok_iff.mp done
    cases last
    exact .restore places
  · exact .idle

theorem truncate : Leaves e (.truncate m) (Engine.truncate m e).2 := by
  refine onTable rfl fun _ _ done => ?_
  cases done
  exact .truncate

theorem commit (id : Nat) : Leaves e (.commit id) (Engine.commit id e).2 := by
  unfold Engine.commit
  cases e.snapshot? id with
  | none => exact .idle
  | some d => exact .committed id

theorem rollback (id : Nat) : Leaves e (.rollback id) (Engine.rollback id e).2 := by
  unfold Engine.rollback
  cases kept : e.snapshot? id with
  | none => exact .idle
  | some d => exact .rolledBack id kept

theorem save (row : Row) (validate : Bool) :
    Leaves e (.save row validate) (Linking.save validate row e).2 := by
  rw [Linking.save, RowAction.bind_run_ok (RowAction.row_run e)]
  split
  · rw [RowAction.bind_leaves fun _ _ _ => rfl, RowAction.ofAction_run]
    exact onTable rfl fun _ _ done => .saveNew done
  · rw [RowAction.bind_leaves fun _ _ _ => rfl, RowAction.ofAction_run]
    refine onTable rfl fun _ _ done => ?_
    obtain ⟨key, stored, done⟩ := bind_eq_ok_iff.mp done
    obtain ⟨place, found, done⟩ := bind_eq_ok_iff.mp done
    cases place with
    | none => cases done
    | some index =>
        rw [Linking.storedKey] at stored
        obtain ⟨pk, named, _⟩ := bind_eq_ok_iff.mp stored
        exact .saveOver named ((Linking.storedKey_ok_iff named).mp stored) found done

end Leaves

/-- A command that connects no rows leaves the engine in one of the ways of `Leaves`, whether
it fails or not. -/
theorem leaves_perform (unlinked : c.isLink = false) : Leaves e c (c.perform e).2 := by
  cases c with
  | create m data request => exact .create data request
  | bulkCreate m rows request => exact .bulkCreate rows request
  | update m values request => exact .update values request
  | upsert m values request => exact .upsert values request
  | destroy m request => exact .destroy request
  | restore m request => exact .restore request
  | truncate m => exact .truncate
  | dropTable m => exact .dropped m
  | beginTransaction => exact .opened (e.lastTransaction + 1)
  | commit id => exact .commit id
  | rollback id => exact .rollback id
  | save row validate => exact .save row validate
  | setAssociation row label linked => cases unlinked

/-- A property of the empty table holds after a command if what the command writes keeps it. -/
theorem everywhere_perform {name : String} {P : Table → Prop} (empty : P {})
    (everywhere : e.Everywhere name P) (unlinked : c.isLink = false)
    (keeps : ∀ m t, c.model? = some m → m.name = name →
      Writes (e.database.openTable name) c t → P t) : (c.perform e).2.Everywhere name P := by
  have leaves : Leaves e c (c.perform e).2 := leaves_perform unlinked
  generalize (c.perform e).2 = left at leaves ⊢
  cases leaves with
  | idle => exact everywhere
  | refused m _ => exact everywhere.setTable fun same => same ▸ everywhere.current
  | wrote m about writes =>
      exact everywhere.setTable fun same => keeps m _ about same (same ▸ writes)
  | dropped m => exact everywhere.dropTable empty
  | opened id =>
      exact ⟨everywhere.current, List.forall_mem_cons.mpr ⟨everywhere.current, everywhere.snapshots⟩⟩
  | committed id => exact everywhere.close
  | rolledBack id kept => exact ⟨everywhere.snapshot kept, everywhere.close.snapshots⟩

end Command

end RecordGraph
