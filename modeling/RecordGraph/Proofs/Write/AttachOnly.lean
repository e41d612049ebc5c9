import RecordGraph.Proofs.Data.Entries
import RecordGraph.Proofs.Store.Replacement
import RecordGraph.Proofs.Write.Invariant
import RecordGraph.Write.Cascade

/-!
# Attaching only

An include may ask to attach the supplied rows and not to write them. Then whatever else is
supplied for a row that is stored already stays unwritten: the row is made, and connected, but
never stored. What connecting writes is not in the supplied rows either, but in the row it
starts from, in a join table, or in the connecting column of the target table.

So of the tables that such includes lead to, only the connecting columns change. `without`
leaves these out of a row, and what is left of the rows is the same list as before.
-/

namespace RecordGraph

/-- The row with some columns left out. -/
def StoredRow.without (columns : List String) (row : StoredRow) : StoredRow :=
  { row with data := List.filter (fun entry => !columns.contains entry.1) row.data }

/-- Two tables with the same rows in the same order, except for some columns. -/
structure Table.Agrees (columns : List String) (t t' : Table) : Prop where
  rows : t'.rows.map (·.without columns) = t.rows.map (·.without columns)
  counter : t'.counter = t.counter

namespace Table

variable {columns : List String} {column pk : String} {t t' u : Table} {key : Value}
variable {wanted : List Value} {row : StoredRow}

theorem Agrees.refl (columns : List String) (t : Table) : t.Agrees columns t :=
  ⟨rfl, rfl⟩

theorem Agrees.trans (h : t.Agrees columns t') (k : t'.Agrees columns u) : t.Agrees columns u :=
  ⟨k.rows.trans h.rows, k.counter.trans h.counter⟩

theorem without_insert (v : Value) (left_out : column ∈ columns) :
    StoredRow.without columns { row with data := row.data.insert column v } =
      row.without columns := by
  have dropped : (!columns.contains column) = false := by simp [left_out]
  rw [StoredRow.without, StoredRow.without]
  congr 1
  exact Dict.filter_insert (fun key => !columns.contains key) v dropped

/-- Without the connecting column a row looks as before it was pointed at a source. -/
theorem without_pointRow (left_out : column ∈ columns) :
    (Linking.pointRow pk column key wanted row).without columns = row.without columns := by
  rw [Linking.pointRow]
  split
  · exact without_insert key left_out
  · split
    · exact without_insert .null left_out
    · rfl

theorem agrees_pointTargets (left_out : column ∈ columns) :
    t.Agrees columns (Linking.pointTargets pk column key wanted t) := by
  refine ⟨?_, rfl⟩
  rw [Linking.pointTargets_rows, List.map_map]
  exact List.map_congr_left fun row _ => without_pointRow left_out

end Table

/-- A row is supplied by what is stored already: by its key, by a record with its key, or by
the row itself. -/
def Item.IsStored (pk : String) : Item → Prop
  | .key _ => True
  | .record fields => (Value.present? (fields.get? pk)).isSome = true
  | .row supplied => supplied.isNew = false

namespace Cascade

variable {r : Registry} {m target : Model} {includes : List Include} {i : Include}
variable {a : Association} {name : String}

/-- The tables that includes of a model lead to. -/
def targetTables (r : Registry) (m : Model) (includes : List Include) : List String :=
  includes.filterMap fun i =>
    (m.association? i.label).bind fun a => (r.get? a.target).map (·.name)

/-- The join tables of the includes of a model. -/
def joinTables (m : Model) (includes : List Include) : List String :=
  includes.filterMap fun i =>
    (m.association? i.label).bind fun a => if a.kind = .belongsToMany then a.through else none

/-- The columns of a table that includes of a model connect the rows of the table by. -/
def connectingColumns (r : Registry) (m : Model) (includes : List Include) (name : String) :
    List String :=
  includes.filterMap fun i =>
    (m.association? i.label).bind fun a => (r.get? a.target).bind fun target =>
      if target.name = name ∧ a.kind.isOwnedByTarget = true then some (r.foreignKey m a) else none

/-- All includes attach only, they lead to other tables than that of the model and to no join
table of theirs, and every row that a draft supplies for them is stored already. -/
structure AttachOnly (r : Registry) (m : Model) (draft : Draft) (includes : List Include) :
    Prop where
  only : ∀ i ∈ includes, i.edge.associateOnly = true
  apart : m.name ∉ targetTables r m includes
  joins : ∀ through ∈ joinTables m includes, through ∉ targetTables r m includes
  stored : ∀ i ∈ includes, ∀ a target pk supplied, m.association? i.label = some a →
    r.get? a.target = some target → target.primaryKey = .ok pk →
    draft.associations.get? i.label = some supplied → ∀ item ∈ supplied.toList, item.IsStored pk

theorem mem_joinTables {through : String} (asked : i ∈ includes)
    (association : m.association? i.label = some a) (kind : a.kind = .belongsToMany)
    (join : a.through = some through) : through ∈ joinTables m includes :=
  List.mem_filterMap.mpr ⟨i, asked, by simp [association, kind, join]⟩

theorem mem_connectingColumns (asked : i ∈ includes)
    (association : m.association? i.label = some a) (registered : r.get? a.target = some target)
    (kind : a.kind.isOwnedByTarget = true) :
    r.foreignKey m a ∈ connectingColumns r m includes target.name :=
  List.mem_filterMap.mpr ⟨i, asked, by simp [association, registered, kind]⟩

section Coerce

variable {options : PersistOptions} {edge : Edge} {depth : Nat} {stamp : Stamp} {item : Item}
variable {descend : Model → Draft → WriteMode → RowRun Engine Unit}

/-- Making a row leaves the store, and the row is new exactly if it is to be. -/
theorem build_run (target : Model) (data : Record) (isNew : Bool) (e : Engine) :
    (Engine.build target data isNew e).2 = e ∧
      ∀ row, (Engine.build target data isNew e).1 = .ok row → row.isNew = isNew := by
  rw [Engine.build, Action.bind_run, Engine.handOut_result, Engine.handOut_leaves]
  cases Loading.model e.registry target.name with
  | error err => exact ⟨rfl, nofun⟩
  | ok registered =>
      refine ⟨rfl, fun row made => ?_⟩
      cases made
      rfl

/-- What is made with a row that is not new leaves the store. -/
theorem make_run (target : Model) (data record : Record) (e : Engine) :
    let run := (Run.ofAction (Failure.ofStorage target) (Backend.build target data false) >>=
      fun row => pure (row, record) : Run Engine (Row × Record)) e
    run.2 = e ∧ ∀ made, run.1 = .ok made → made.1.isNew = false := by
  obtain ⟨left, old⟩ := build_run target data false e
  simp only [Action.bind_run, Run.ofAction, Backend.build]
  generalize Engine.build target data false e = run at left old ⊢
  obtain ⟨result, e'⟩ := run
  subst left
  cases result with
  | error err => exact ⟨rfl, nofun⟩
  | ok row =>
      refine ⟨rfl, fun made answer => ?_⟩
      cases answer
      exact old row rfl

/-- A stored row that is supplied stays in the store as it is and is no new one, also
with a column written in advance. -/
theorem supply_run {pk : String} (depth : Nat)
    (nonnull : ∀ column v, stamp = some (column, v) → v ≠ .null)
    (stored : item.IsStored pk) (e : Engine) :
    let run := (supply target pk depth stamp item : Run Engine (Row × Record)) e
    run.2 = e ∧ ∀ made, run.1 = .ok made → made.1.isNew = false := by
  cases item with
  | key key => exact make_run target [(pk, key)] _ e
  | row supplied =>
      refine ⟨rfl, fun made answer => ?_⟩
      cases answer
      exact stored
  | record fields =>
      have known : (Value.present? ((stampRecord stamp fields).get? pk)).isNone = false := by
        cases stamp with
        | none => simpa [Item.IsStored, stampRecord] using stored
        | some written =>
            obtain ⟨column, v⟩ := written
            have present : Value.present? (some v) = some v :=
              Value.present?_eq_some_iff.mpr ⟨rfl, nonnull column v rfl⟩
            simp only [stampRecord, Dict.get?_insert]
            split
            · rw [present]
              rfl
            · simpa [Item.IsStored] using stored
      simp only [supply, known]
      exact make_run target _ _ e

/-- A stored row that is to be attached only is not written. -/
theorem leaves_coerce (only : edge.associateOnly = true)
    (nonnull : ∀ column v, stamp = some (column, v) → v ≠ .null)
    (stored : ∀ pk, target.primaryKey = .ok pk → item.IsStored pk) :
    Leaves (coerce options edge depth descend target stamp item) := by
  intro e
  rw [coerce, Action.bind_run]
  cases keyed : primaryKey target with
  | error err => rfl
  | ok pk =>
      have known : target.primaryKey = .ok pk := mapError_eq_ok_iff.mp keyed
      obtain ⟨left, old⟩ := supply_run depth nonnull (stored pk known) e
      show ((supply target pk depth stamp item >>= _) e).2 = e
      rw [Action.bind_run]
      cases answer : ((supply target pk depth stamp item : Run Engine (Row × Record)) e).1 with
      | error err => exact left
      | ok made =>
          obtain ⟨row, record⟩ := made
          have notNew : row.isNew = false := old _ answer
          have attached : attachesOnly edge pk row record = true := by
            simp [attachesOnly, notNew, only]
          simp only [attached, if_true]
          exact left

/-- A column that is written in advance gets a value. -/
theorem stamp_nonnull {mode : WriteMode} {column pk : String} {row : Row} (c : String) (v : Value)
    (stamped : Cascade.stamp mode a column pk row = some (c, v)) : v ≠ .null := by
  rw [Cascade.stamp] at stamped
  split at stamped
  · obtain ⟨key, present, same⟩ := Option.map_eq_some_iff.mp stamped
    cases same
    exact (Value.present?_eq_some_iff.mp present).2
  · cases stamped

end Coerce

section Walk

variable {options : PersistOptions} {draft : Draft} {mode : WriteMode} {base : Engine}

/-- The target tables agree with those of an engine, up to the connecting columns. -/
def TargetsAgree (base : Engine) (m : Model) (includes : List Include) (e : Engine) : Prop :=
  ∀ name ∈ targetTables base.registry m includes,
    (base.database.openTable name).Agrees (connectingColumns base.registry m includes name)
      (e.database.openTable name)

/-- Along a walk the row stays one of its model, and the target tables agree with those of
the engine that the walk began with. -/
structure Attaching (base : Engine) (m : Model) (includes : List Include) (row : Row)
    (e : Engine) : Prop where
  model : row.model = m
  registry : e.registry = base.registry
  agree : TargetsAgree base m includes e

/-- Writing some other table, or one that agrees with what it was, changes nothing. -/
theorem TargetsAgree.setTable {e : Engine} {t : Table} (h : TargetsAgree base m includes e)
    (table : name ∈ targetTables base.registry m includes →
      (e.database.openTable name).Agrees (connectingColumns base.registry m includes name) t) :
    TargetsAgree base m includes (e.setTable name t) := by
  intro other member
  by_cases here : other = name
  · subst here
    rw [Engine.setTable, Database.openTable_setTable_self]
    exact (h other member).trans (table member)
  · rw [Engine.setTable, Database.openTable_setTable_of_ne _ _ here]
    exact h other member

/-- Connecting a row under the label of one of the includes writes target tables in the
connecting columns only. -/
theorem rowKeeps_setAssociation (attach : AttachOnly base.registry m draft includes)
    (asked : i ∈ includes) (linked : Linked Row) :
    RowKeeps (Attaching base m includes) (TargetsAgree base m includes)
      (Linking.setAssociation i.label linked) := by
  rintro row e ⟨rfl, registry, agree⟩
  have own {t : Table} : TargetsAgree base row.model includes (e.setTable row.model.name t) :=
    agree.setTable fun member => absurd member attach.apart
  generalize run : Linking.setAssociation i.label linked row e = done
  obtain ⟨⟨result, row'⟩, e'⟩ := done
  cases result with
  | error err =>
      rcases (Linking.connect_error (Linking.setAssociation_error run)).1 with rfl | rfl
      · exact agree
      · exact own
  | ok _ =>
      obtain ⟨connected, connects, rfl⟩ := Linking.setAssociation_ok_iff.mp run
      obtain ⟨a, target, pk, wanted, ends, connects⟩ := Linking.connect_ok connects
      have registered := ends.registered
      rw [registry] at registered connects
      cases connects with
      | belongsTo => exact ⟨rfl, registry, own⟩
      | pointed kind =>
          refine ⟨rfl, registry, agree.setTable fun _ => ?_⟩
          exact Table.agrees_pointTargets
            (mem_connectingColumns asked ends.association registered kind)
      | paired kind _ join =>
          refine ⟨rfl, registry, agree.setTable fun member => ?_⟩
          exact absurd member (attach.joins _ (mem_joinTables asked ends.association kind join))

theorem rowKeeps_writeEdge (attach : AttachOnly base.registry m draft includes)
    (asked : i ∈ includes) (pk : String) (depth : Nat)
    (descend : Model → Draft → WriteMode → RowRun Engine Unit) :
    RowKeeps (Attaching base m includes) (TargetsAgree base m includes)
      (writeEdge base.registry options m draft mode pk i.edge depth descend) := by
  rw [writeEdge]
  split
  · rename_i supplied a given association
    split
    · exact rowKeeps_pure ()
    · rename_i target registered
      dsimp only
      split
      · exact rowKeeps_pure ()
      · refine rowKeeps_runRow.bind fun row => ?_
        refine RowKeeps.bind ?_ fun items => ?_
        · refine Leaves.ofRun (fun _ _ kept => kept.agree) (Leaves.mapM fun item member => ?_)
          refine leaves_coerce (attach.only i asked) stamp_nonnull fun targetPk keyed => ?_
          exact attach.stored i asked a target targetPk supplied association registered keyed given
            item member
        · exact (rowKeeps_setAssociation attach asked _).ofAction _
  · exact rowKeeps_pure ()

/-- One step for each include: a part of the includes is walked. -/
theorem rowKeeps_writeAll (attach : AttachOnly base.registry m draft includes) (pk : String)
    {part : List Include} (inside : ∀ i ∈ part, i ∈ includes) :
    RowKeeps (Attaching base m includes) (TargetsAgree base m includes)
      (writeAll base.registry options m draft mode pk part) := by
  induction part with
  | nil => exact rowKeeps_pure ()
  | cons i rest ih =>
      obtain ⟨asked, others⟩ := List.forall_mem_cons.mp inside
      rw [writeAll]
      refine RowKeeps.bind ?_ fun _ => ih others
      cases i with
      | plain edge => exact rowKeeps_writeEdge (i := .plain edge) attach asked pk _ _
      | nested edge selection children =>
          exact rowKeeps_writeEdge (i := .nested edge selection children) attach asked pk _ _

/-- Writing along includes that attach only stores none of the supplied rows: whether it
fails or not, every target table has the same rows in the same order, hidden or shown as
before, and with the same values but for the columns that connect them with the row. -/
theorem persist_attaches {e : Engine} {row : Row}
    (attach : AttachOnly e.registry row.model draft includes) :
    ∀ name ∈ targetTables e.registry row.model includes,
      (e.database.openTable name).Agrees (connectingColumns e.registry row.model includes name)
        ((persist e.registry options row.model draft mode includes row e).2.database.openTable
          name) := by
  have begins : Attaching e row.model includes row e :=
    ⟨rfl, rfl, fun name _ => Table.Agrees.refl _ _⟩
  have keeps : RowKeeps (Attaching e row.model includes) (TargetsAgree e row.model includes)
      (persist e.registry options row.model draft mode includes) := by
    rw [persist, enclose]
    split
    · exact rowKeeps_pure ()
    · refine (rowKeeps_lift (fun _ _ kept => kept.agree) _).bind fun pk => ?_
      refine (rowKeeps_writeAll attach pk fun _ member => member).bind fun _ => ?_
      refine (Linking.rowKeeps_reload (fun _ _ kept => kept.agree) ?_ _).ofAction _
      exact fun _ _ _ _ kept => ⟨kept.model, kept.registry, kept.agree⟩
  have after := keeps row e begins
  split at after
  · exact after.agree
  · exact after

end Walk

section Books

open Linking (author book books library second shelf unclaimed)

/-- An include that attaches books. -/
def attachedBooks : Include :=
  .nested { target := "Book", label := "books", associateOnly := true } { model := "Book" } []

/-- Books supplied for an author: by a record that has more than the key, by a key, and as a
row. -/
def suppliedBooks : Draft :=
  { associations := [("books", .many [.record [("id", .ofInt 1), ("title", .str "Emma")],
      .key (.ofInt 2), .row unclaimed])] }

/-- The supplied books get their author, and nothing else about them changes: the title of
the first one is not written. -/
theorem persist_attaches_books :
    let run := persist library {} author suppliedBooks .create [attachedBooks] second shelf
    run.1.1 = .ok () ∧ (run.2.database.openTable "Book").rows.map (·.without ["authorId"]) =
      (shelf.database.openTable "Book").rows.map (·.without ["authorId"]) := by
  have attach : AttachOnly shelf.registry second.model suppliedBooks [attachedBooks] := by
    constructor
    · exact List.forall_mem_singleton.mpr rfl
    · exact show "Author" ∉ targetTables library author [attachedBooks] by decide
    · exact show ∀ through ∈ joinTables author [attachedBooks], _ from nofun
    · intro i asked a target pk supplied association registered keyed given item member
      obtain rfl := List.mem_singleton.mp asked
      obtain rfl : books = a := Option.some.inj association
      obtain rfl : book = target := Option.some.inj registered
      obtain rfl : "id" = pk := Except.ok.inj keyed
      obtain rfl := Option.some.inj given
      simp only [Linked.toList, List.mem_cons, List.not_mem_nil, or_false] at member
      rcases member with rfl | rfl | rfl
      · rfl
      · trivial
      · rfl
  exact ⟨rfl, (persist_attaches attach "Book" (List.mem_singleton_self _)).rows⟩

end Books

end Cascade

end RecordGraph
